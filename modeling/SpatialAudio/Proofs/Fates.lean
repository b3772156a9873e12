import SpatialAudio.Proofs.Dataflow
import SpatialAudio.Proofs.Ownership
import SpatialAudio.Proofs.Ranges
import SpatialAudio.Proofs.Stories
import SpatialAudio.Proofs.Switching

/-!
# Proofs/Fates — what becomes of one node

A happening may do something to a node only if the node is named in it, or if it is a block.
`Touches` says what: a deed that names a node gives it a layout, an observer, a mark or a strategy.
A node that is there before and after is **the same or touched** (`Happening.same_or_touches`), and
one that is there only after is **new**, as `associate` or `assemble` made it (`Deed.origin`).

A block lets nodes ask for layouts first, which leaves properties and panners for headphones alone
(`Bides`).  Then it is given up, or the nodes that lead to the root take their turns and owners of
such nodes lose their marks (`Fate`, `Graph.Sound.exists_fate`).
-/

namespace SpatialAudio

open Relation SpatialAudio.Graph

variable {g g' : Graph} {x id : NodeId} {n n' : Node}

/-! ## Blocks -/

/-- Two states of a node with one owner and one interior. -/
structure Node.SamePlace (n n' : Node) : Prop where
  owner : n'.owner = n.owner
  interior : n'.interior = n.interior

theorem Node.SamePlace.refl (n : Node) : n.SamePlace n := ⟨rfl, rfl⟩

theorem Node.SamePlace.trans {n'' : Node} (h : n.SamePlace n') (h' : n'.SamePlace n'') :
    n.SamePlace n'' := ⟨h'.owner.trans h.owner, h'.interior.trans h.interior⟩

/-- The node may have been given a layout; properties stay, and so does a panner for headphones. -/
structure Node.Bides (n n' : Node) : Prop extends n.SamePlace n' where
  type : n'.kind.type = n.kind.type
  properties : n'.properties = n.properties
  hrtf : ∀ q, n.kind = .hrtfPanner q → n'.kind = n.kind ∧ n'.layout = n.layout

theorem Node.Bides.refl (n : Node) : n.Bides n := ⟨.refl n, rfl, rfl, fun _ _ => ⟨rfl, rfl⟩⟩

theorem Node.Bides.trans {n'' : Node} (h : n.Bides n') (h' : n'.Bides n'') : n.Bides n'' where
  toSamePlace := h.toSamePlace.trans h'.toSamePlace
  type := h'.type.trans h.type
  properties := h'.properties.trans h.properties
  hrtf q hq := by
    obtain ⟨hkind, hlayout⟩ := h.hrtf q hq
    obtain ⟨hkind', hlayout'⟩ := h'.hrtf q (hkind.trans hq)
    exact ⟨hkind'.trans hkind, hlayout'.trans hlayout⟩

/-- What becomes of the node `x` in a block for `id`. -/
inductive Fate (g : Graph) (id x : NodeId) (n n' : Node) : Prop
  /-- The block is given up. -/
  | refused {root : Nat} {ready : Graph} {refusal : Nat × Error}
      (hready : g.prepare id = .ok (root, ready, some refusal)) (h : n.Bides n')
  /-- The node takes its turn. -/
  | turn {root : Nat} {ready : Graph} {m : Node} {rings rings' : List Ring}
      (hready : g.prepare id = .ok (root, ready, none)) (hleads : Leads g.edges x.index root)
      (h : n.Bides m) (hturn : Turn g.sampleRate rings n'.inputs m n' rings')
  /-- A node that is private to it takes its turn. -/
  | around {root : Nat} {ready : Graph}
      (hready : g.prepare id = .ok (root, ready, none)) (hleads : ¬ Leads g.edges x.index root)
      (howns : ∃ i, Leads g.edges i root ∧ g.Owns x.index i) (h : n' = unmark n)
  /-- The block is about other nodes. -/
  | beside {root : Nat} {ready : Graph}
      (hready : g.prepare id = .ok (root, ready, none)) (hleads : ¬ Leads g.edges x.index root)
      (howns : ¬ ∃ i, Leads g.edges i root ∧ g.Owns x.index i) (h : n' = n)

namespace Graph

variable {i : Nat} {l : Layout}

theorem within_applyLayoutAt {q : AmplitudePanner} (hn : g.nodeAt? i = some n)
    (hk : n.kind = .amplitudePanner q) (h : g.applyLayoutAt i l = .ok g') :
    Within Node.Bides g g' := by
  have hbides : ∀ n' : Node, n'.kind = n.kind.layoutApplied → n'.properties = n.properties →
      n.SamePlace n' → n.Bides n' := fun n' hkind hprops hplace =>
    ⟨hplace, by rw [hkind, NodeKind.type_layoutApplied], hprops,
      fun q' hq' => by rw [hk] at hq'; cases hq'⟩
  rw [applyLayoutAt] at h
  split at h
  · cases h
    refine within_modifyAt .refl fun m hm => ?_
    cases hn.symm.trans hm
    exact hbides _ rfl rfl ⟨rfl, rfl⟩
  · obtain ⟨_, -, h⟩ := bind_eq_ok.mp h
    cases h
    refine within_modifyAt .refl fun m hm => ?_
    cases hn.symm.trans hm
    exact hbides _ rfl rfl ⟨rfl, rfl⟩

theorem bides_propose (n : Node) : n.Bides { n with kind := (n.kind.propose n.properties).1 } where
  toSamePlace := ⟨rfl, rfl⟩
  type := propose_type n.kind n.properties
  properties := rfl
  hrtf q hq := by
    rw [hq]
    exact ⟨rfl, rfl⟩

/-- Nodes that are asked for layouts keep their properties. -/
theorem within_proposeAll {schedule : List Nat} {refused : Option (Nat × Error)}
    (h : proposeAll schedule g = .ok (g', refused)) : Within Node.Bides g g' := by
  induction schedule generalizing g with
  | nil =>
    cases h
    exact .refl .refl _
  | cons i rest ih =>
    rw [proposeAll] at h
    split at h
    · exact ih h
    · next n hn =>
      have hstep : Within Node.Bides g
          (g.modifyAt i fun m => { m with kind := (n.kind.propose n.properties).1 }) := by
        refine within_modifyAt .refl fun m hm => ?_
        cases hn.symm.trans hm
        exact bides_propose n
      have hat : (g.modifyAt i fun m =>
          { m with kind := (n.kind.propose n.properties).1 }).nodeAt? i
            = some { n with kind := (n.kind.propose n.properties).1 } := by
        rw [nodeAt?_modifyAt, if_pos rfl, hn]
        rfl
      rcases hp : n.kind.propose n.properties with ⟨kind, wanted⟩
      rw [hp] at h hstep hat
      cases wanted with
      | none => exact hstep.trans .trans (ih h)
      | some l =>
        obtain ⟨-, q, hq⟩ := propose_eq_some (congrArg Prod.snd hp)
        rw [hp] at hq
        dsimp only at h
        split at h
        · next g₁ happly =>
          exact (hstep.trans .trans (within_applyLayoutAt hat hq happly)).trans .trans (ih h)
        · cases h
          exact hstep
        · cases h

theorem within_abandon (g : Graph) (root block culprit : Nat) (e : Error) :
    Within Node.Bides g (g.abandon root block culprit e) := by
  have hsilenced : Within Node.Bides g
      (g.modifyAt root fun n => { n with outputs := n.outputs.map fun _ => Block.silent }) :=
    within_modifyAt .refl fun n _ => ⟨⟨rfl, rfl⟩, rfl, rfl, fun _ _ => ⟨rfl, rfl⟩⟩
  rw [abandon]
  split
  · exact ⟨hsilenced.edges, hsilenced.vacant, hsilenced.root, hsilenced.schedule, hsilenced.length,
      hsilenced.handleAt, hsilenced.forth, hsilenced.back⟩
  · exact hsilenced

theorem bides_prepare {root : Nat} {ready : Graph}
    {refused : Option (Nat × Error)} (hready : g.prepare id = .ok (root, ready, refused))
    (hn : g.node x = .ok n) : ∃ m, ready.node x = .ok m ∧ n.Bides m := by
  obtain ⟨-, -, hpropose⟩ := prepare_eq_ok.mp hready
  refine (within_proposeAll hpropose).node_forth ?_
  exact (node_scheduleFor g root x).trans hn

/-- A block adds no node. -/
theorem Pulled.exists_node (h : Pulled g g') (hn' : g'.node x = .ok n') :
    ∃ n, g.node x = .ok n := by
  induction h generalizing n' with
  | refl => exact ⟨n', hn'⟩
  | tail _ hstep ih =>
    cases hstep with
    | played hw =>
      obtain ⟨m, hm, -⟩ := hw.node_back hn'
      exact ih hm
    | arranged i m q hm hk happly =>
      obtain ⟨f, rfl, -⟩ := applyLayoutAt_eq_modifyAt happly
      obtain ⟨m, hm, -⟩ := (within_modifyAt (R := fun _ _ => True) (fun _ => trivial)
        fun _ _ => trivial).node_back hn'
      exact ih hm

theorem exists_node_of_pull (h : g.pull id = .ok g') (hn' : g'.node x = .ok n') :
    ∃ n, g.node x = .ok n := by
  obtain ⟨root, -, -, hpulled⟩ := pull_eq_ok h
  obtain ⟨n, hn⟩ := hpulled.exists_node hn'
  exact ⟨n, (node_scheduleFor g root x).symm.trans hn⟩

/-- **Every node has one of four fates in a block.** -/
theorem Sound.exists_fate (h : g.Sound) (hpull : g.pull id = .ok g') (hn : g.node x = .ok n) :
    ∃ n', g'.node x = .ok n' ∧ Fate g id x n n' := by
  rw [pull_eq_prepare] at hpull
  obtain ⟨⟨root, ready, refused⟩, hready, hpull⟩ := bind_eq_ok.mp hpull
  obtain ⟨m, hm, hbides⟩ := bides_prepare hready hn
  cases refused with
  | some refusal =>
    obtain rfl := pure_eq_ok.mp hpull
    obtain ⟨n', hn', hbides'⟩ := (within_abandon ready root _ refusal.1 refusal.2).node_forth hm
    exact ⟨n', hn', .refused hready (hbides.trans hbides')⟩
  | none =>
    have heval := (h.prepared hready).evaluated hpull
    obtain ⟨hat, hhandle⟩ := node_eq_ok.mp hn
    have halive : ∀ {n'}, g'.nodeAt? x.index = some n' → g'.node x = .ok n' := fun hn' =>
      node_eq_ok.mpr ⟨hn', (heval.handles _).trans hhandle⟩
    by_cases hleads : Leads g.edges x.index root
    · obtain ⟨m', n', rings, rings', hm', hn', hturn, -⟩ := heval.computed _ hleads
      cases (nodeAt?_of_node hm).symm.trans hm'
      exact ⟨n', halive hn', .turn hready hleads hbides hturn⟩
    · obtain ⟨howner, hother⟩ := heval.kept _ hleads
      by_cases howns : ∃ i, Leads g.edges i root ∧ g.Owns x.index i
      · have hlast := howner howns
        rw [hat, Option.map_some] at hlast
        exact ⟨_, halive hlast, .around hready hleads howns rfl⟩
      · exact ⟨n, halive ((hother howns).trans hat), .beside hready hleads howns rfl⟩

end Graph

/-! ## Deeds and other happenings -/

/-- A change of a property shows only in what it changes. -/
theorem Properties.map_get?_modify {α : Type} {ps : Properties} {p q : PropertyId}
    {f : Property → Property} {view : Property → α} (hf : ∀ y, view (f y) = view y) :
    ((ps.modify p f).get? q).map view = (ps.get? q).map view := by
  rw [get?_modify]
  split
  · rw [Option.map_map]
    exact congrArg (fun f => (ps.get? q).map f) (funext hf)
  · rfl

/-- The node with other observers of a property. -/
def Node.withObservers (n : Node) (phase : Phase) (p : PropertyId)
    (f : List Observer → List Observer) : Node :=
  { n with
    properties := n.properties.modify p fun y => y.setObservers phase (f (y.observers phase)) }

/-- What a deed makes of a node `x` of the graph. -/
def Deed.Touches {α : Type} (g : Graph) (x : NodeId) : Deed α → Node → Node → Prop
  | .arrange id layout, n, n' => id = x ∧ n' = rearrange layout n
  | .observe phase id p o, n, n' => id = x ∧ n' = n.withObservers phase p (· ++ [o])
  | .recomputeMap id, n, n' => id = x ∧ n'.properties = n.properties ∧ n.SamePlace n' ∧
    ∃ q q', n.kind = .amplitudePanner q ∧ n'.kind = .amplitudePanner q'
  | .markRecompute id, n, n' => id = x ∧
    ∃ q, n.kind = .hrtfPanner q ∧ n' = { n with kind := .hrtfPanner q.markRecompute }
  | .adopt id strategy, n, n' => id = x ∧
    ∃ m, n.kind = .multipanner m ∧ n' = { n with kind := .multipanner { m with strategy } }
  | .pull id, n, n' => (∃ g', g.pull id = .ok g') ∧ Fate g id x n n'
  | _, _, _ => False

/-- What a happening makes of a node `x` of the graph. -/
def Happening.Touches (g : Graph) (x : NodeId) : Happening → Node → Node → Prop
  | deed d, n, n' => d.Touches g x n n'
  | taken phase id p, n, n' => id = x ∧ n' = n.withObservers phase p fun _ => []
  | restored phase id p os, n, n' => id = x ∧ n' = n.withObservers phase p (os ++ ·)
  | stored id p v, n, n' => id = x ∧ n' = { n with properties := n.properties.modify p (·.store v) }

/-- The node has the properties of its kind, with observers that were registered on them. -/
def Node.Newborn (n : Node) : Prop :=
  ∃ registrations : List (Phase × PropertyId × Observer),
    n.properties = registrations.foldl Properties.register n.kind.properties

/-- A node was there before, and is the same or in the relation `T` to what it was. -/
def Stems (g : Graph) (x : NodeId) (T : Node → Node → Prop) (n' : Node) : Prop :=
  ∃ n, g.node x = .ok n ∧ (n' = n ∨ T n n')

section Stems

variable {T : Node → Node → Prop}

theorem stems_of_node (h : g'.node x = g.node x) {n' : Node} (hn' : g'.node x = .ok n') :
    Stems g x T n' := ⟨n', h.symm.trans hn', .inl rfl⟩

theorem stems_of_wrote {m m' : Node} (hw : g.Wrote id m' g') (hm : g.node id = .ok m)
    (hT : id = x → T m m') {n' : Node} (hn' : g'.node x = .ok n') : Stems g x T n' := by
  by_cases hx : id = x
  · subst hx
    cases hw.self.symm.trans hn'
    exact ⟨m, hm, .inr (hT rfl)⟩
  · exact stems_of_node (hw.other (Ne.symm hx)) hn'

theorem stems_change {f : Graph → Except Error Graph}
    (hf : ∀ g', f g = .ok g' → ∀ {n'}, g'.node x = .ok n' → Stems g x T n') {n' : Node}
    (hn' : ((GraphM.change f).run g).2.node x = .ok n') : Stems g x T n' :=
  inv_change (I := fun g' => ∀ {n'}, g'.node x = .ok n' → Stems g x T n') (stems_of_node rfl) hf hn'

theorem stems_update {f : Graph → Except Failure Graph}
    (hf : ∀ g', f g = .ok g' → ∀ {n'}, g'.node x = .ok n' → Stems g x T n') {n' : Node}
    (hn' : ((GraphM.update f).run g).2.node x = .ok n') : Stems g x T n' :=
  inv_update (I := fun g' => ∀ {n'}, g'.node x = .ok n' → Stems g x T n') (stems_of_node rfl) hf hn'

end Stems

/-- Changing a property touches its node alone. -/
theorem Graph.Sound.stems_modifyProperty (h : g.Sound) (id : NodeId) (p : PropertyId)
    (f : Property → Property) (hn' : (g.modifyProperty id p f).node x = .ok n') :
    Stems g x (fun n n' => id = x ∧ n' = { n with properties := n.properties.modify p f }) n' := by
  rcases h.modifyProperty_cases id p f with hsame | ⟨m, hm, hw⟩
  · rw [hsame] at hn'
    exact stems_of_node rfl hn'
  · exact stems_of_wrote hw hm (fun hx => ⟨hx, rfl⟩) hn'

theorem Graph.Sound.stems_recomputeMap (h : g.Sound) (id : NodeId)
    (hn' : ((Graph.recomputeMap id).run g).2.node x = .ok n') :
    Stems g x ((Deed.recomputeMap id).Touches g x) n' := by
  by_cases hex : ∃ m q, g.node id = .ok m ∧ m.kind = .amplitudePanner q
  · obtain ⟨m, q, hm, hk⟩ := hex
    have hw := h.wrote (f := fun _ => staged q m) hm (alike_staged q m)
    have htouched : ∀ (m' : Node) {q' g''}, m'.properties = m.properties → m.SamePlace m' →
        m'.kind = .amplitudePanner q' → g.Wrote id m' g'' → g''.node x = .ok n' →
        Stems g x ((Deed.recomputeMap id).Touches g x) n' :=
      fun m' q' g'' hprops hplace hkind hw' =>
        stems_of_wrote hw' hm fun hx => ⟨hx, hprops, hplace, q, q', hk, hkind⟩
    rw [run_recomputeMap hm hk] at hn'
    split at hn'
    · next happly =>
      obtain ⟨m', hm', hw'⟩ := hw.sound.exists_applyLayout happly
      cases hw.self.symm.trans hm'
      exact htouched (rearrange _ (staged q m)) (rearrange_properties _ _)
        ⟨rearrange_owner _ _, rearrange_interior _ _⟩ (rearrange_kind _ _) (hw.trans hw') hn'
    · have hw' := hw.sound.wrote (f := fun m => { m with kind := .amplitudePanner q.discard })
        hw.self ⟨⟨rfl, rfl, rfl⟩, rfl, rfl⟩
      exact htouched { staged q m with kind := .amplitudePanner q.discard } rfl ⟨rfl, rfl⟩ rfl
        (hw.trans hw') hn'
  · obtain ⟨e, hrun⟩ := run_recomputeMap_of_not fun n q hn hk => hex ⟨n, q, hn, hk⟩
    rw [hrun] at hn'
    exact stems_of_node rfl hn'

theorem Graph.Sound.stems_kind (h : g.Sound) {m : Node} {k : NodeKind} {T : Node → Node → Prop}
    (hm : g.node id = .ok m) (hT : id = x → T m { m with kind := k })
    (hn' : (g.modifyAt id.index fun n => { n with kind := k }).node x = .ok n') :
    Stems g x T n' :=
  stems_of_wrote (h.wrote (f := fun n => { n with kind := k }) hm ⟨⟨rfl, rfl, rfl⟩, rfl, rfl⟩) hm hT
    hn'

/-- The nodes of a new multipanner are newborn. -/
theorem newborn_assembled {m : Multipanner} (h : Multipanner.Assembled g id m g')
    (hx : x ∈ id :: m.inside) (hn' : g'.node x = .ok n') : n'.Newborn := by
  have hborn : ∀ {k ps l o e} (registrations : List (Phase × PropertyId × Observer)),
      g'.Holds x k ps l o e → ps = registrations.foldl Properties.register k.properties →
        n'.Newborn := by
    rintro k ps l o e registrations ⟨_, _, hx⟩ hps
    cases hx.symm.trans hn'
    exact ⟨registrations, hps⟩
  obtain ⟨q, hhrtf⟩ := h.hrtf
  rcases List.mem_cons.mp hx with rfl | hx
  · exact hborn Multipanner.observers h.panner rfl
  · rcases Multipanner.mem_inside.mp hx with rfl | rfl | rfl | rfl
    · exact hborn [] h.input rfl
    · exact hborn [] h.output rfl
    · exact hborn [(.after, .azimuth, .markRecompute), (.after, .elevation, .markRecompute)] hhrtf
        rfl
    · exact hborn [] h.amplitude rfl

/-- The deed makes nodes. -/
def Deed.makes {α : Type} : Deed α → Bool
  | .associate .. | .assemble .. => true
  | _ => false

/-- All nodes after a deed that makes none were there before. -/
theorem Deed.stems {α : Type} (h : g.Sound) {d : Deed α} (hd : d.makes = false)
    (hn' : (d.after g).node x = .ok n') : Stems g x (d.Touches g x) n' := by
  cases d with
  | associate | assemble => cases hd
  | remove id =>
    refine stems_change (fun g' hr _ hm => ?_) hn'
    have hremoved := h.toCoherent.removed hr
    by_cases hx : g.GoesWith id x
    · cases (hremoved.gone x hx).symm.trans hm
    · exact stems_of_node (hremoved.kept x hx) hm
  | connect source o target i =>
    exact stems_change (fun g' hc =>
      stems_of_node (node_connectAt (connect_eq_ok.mp hc).2.2 x)) hn'
  | connectInterior source o target i =>
    exact stems_change (fun g' hc =>
      stems_of_node (node_connectAt (connectInterior_eq_ok.mp hc).2.2 x)) hn'
  | disconnect source o =>
    exact stems_change (fun g' hc =>
      stems_of_node (node_disconnectAt (disconnect_eq_ok.mp hc).2 x)) hn'
  | disconnectInterior source o =>
    exact stems_change (fun g' hc =>
      stems_of_node (node_disconnectAt (disconnectInterior_eq_ok.mp hc).2 x)) hn'
  | arrange id layout =>
    refine stems_update (fun g' happly _ hm => ?_) hn'
    obtain ⟨n, hn, hw⟩ := h.exists_applyLayout happly
    exact stems_of_wrote hw hn (fun hx => ⟨hx, rfl⟩) hm
  | observe phase id p o =>
    refine stems_change (fun g' hadd _ hm => ?_) hn'
    obtain ⟨-, rfl⟩ := addObserver_eq_ok.mp hadd
    exact h.stems_modifyProperty id p _ hm
  | recomputeMap id => exact h.stems_recomputeMap id hn'
  | markRecompute id =>
    refine stems_change (fun g' hmark _ hm => ?_) hn'
    obtain ⟨n, hn, hmark⟩ := bind_eq_ok.mp hmark
    obtain ⟨q, hq, hmark⟩ := bind_eq_ok.mp hmark
    cases hmark
    cases hk : n.kind with
    | hrtfPanner q' =>
      rw [hk] at hq
      cases hq
      exact h.stems_kind hn (fun hx => ⟨hx, q, hk, rfl⟩) hm
    | _ => rw [hk] at hq; cases hq
  | adopt id strategy =>
    refine stems_change (fun g' hadopt _ hm => ?_) hn'
    obtain ⟨k, hk, hadopt⟩ := bind_eq_ok.mp hadopt
    cases hadopt
    obtain ⟨n, hn, hkind⟩ := Multipanner.find_eq_ok.mp hk
    exact h.stems_kind hn (fun hx => ⟨hx, k, hkind, rfl⟩) hm
  | pull id =>
    refine stems_update (fun g' hpull m hm => ?_) hn'
    obtain ⟨n, hn⟩ := exists_node_of_pull hpull hm
    obtain ⟨m', hm', hfate⟩ := h.exists_fate hpull hn
    cases hm'.symm.trans hm
    exact ⟨n, hn, .inr ⟨⟨g', hpull⟩, hfate⟩⟩
  | addRing capacity =>
    refine stems_of_node ?_ hn'
    rw [Deed.after, Deed.run, Graph.addRing]
    split <;> rfl
  | clearFaults => exact stems_of_node rfl hn'
  | refill number ring => exact stems_of_node rfl hn'

/-- **Where the nodes after a deed come from**: they were there and the deed touches them or not, or
the deed made them. -/
theorem Deed.origin {α : Type} (h : g.Sound) (d : Deed α) (hn' : (d.after g).node x = .ok n') :
    Stems g x (d.Touches g x) n' ∨ (∀ n, g.node x ≠ .ok n) ∧ n'.Newborn := by
  cases d with
  | associate kind layout =>
    change ((Graph.associate kind layout).run g).2.node x = .ok n' at hn'
    rcases associate_cases h kind layout with ⟨g', hrun, hw⟩ | ⟨e, g', hrun, -, hnode, -⟩
    · rw [hrun] at hn'
      by_cases hx : x = g.nextHandle
      · subst hx
        cases hw.self.symm.trans hn'
        refine .inr ⟨h.arena.node_nextHandle, [], ?_⟩
        exact (NodeKind.properties_congr kind.type_layoutApplied).symm
      · exact .inl (stems_of_node (hw.other hx) hn')
    · rw [hrun] at hn'
      exact .inl (stems_of_node (hnode x) hn')
  | assemble data =>
    change ((Multipanner.assemble data).run g).2.node x = .ok n' at hn'
    cases hq : HrtfPanner.new data with
    | error a =>
      rw [Multipanner.run_assemble_of_error hq] at hn'
      exact .inl (stems_of_node rfl hn')
    | ok q =>
      obtain ⟨id, m, g', hrun, ha⟩ := Multipanner.run_assemble h hq
      rw [hrun] at hn'
      by_cases hx : x ∈ id :: m.inside
      · exact .inr ⟨ha.fresh x hx, newborn_assembled ha hx hn'⟩
      · exact .inl (stems_of_node (ha.others x hx) hn')
  | _ => exact .inl (Deed.stems h rfl hn')

/-- **Where the nodes after a happening come from.** -/
theorem Happening.origin (h : g.Sound) (k : Happening) (hn' : (k.after g).node x = .ok n') :
    Stems g x (k.Touches g x) n' ∨ (∀ n, g.node x ≠ .ok n) ∧ n'.Newborn := by
  cases k with
  | deed d => exact d.origin h hn'
  | taken phase id p => exact .inl (h.stems_modifyProperty id p _ hn')
  | restored phase id p os => exact .inl (h.stems_modifyProperty id p _ hn')
  | stored id p v => exact .inl (h.stems_modifyProperty id p _ hn')

/-- **A node that is there before and after is the same, or the happening touches it.** -/
theorem Happening.same_or_touches (h : g.Sound) (k : Happening) (hn : g.node x = .ok n)
    (hn' : (k.after g).node x = .ok n') : n' = n ∨ k.Touches g x n n' := by
  rcases k.origin h hn' with ⟨m, hm, hsame⟩ | ⟨hnew, -⟩
  · cases hn.symm.trans hm
    exact hsame
  · exact absurd hn (hnew n)

/-! ## Places -/

theorem Fate.samePlace (h : Fate g id x n n') : n.SamePlace n' := by
  cases h with
  | refused _ h => exact h.toSamePlace
  | turn _ _ h hturn => exact h.toSamePlace.trans ⟨hturn.owner, hturn.interior⟩
  | around _ _ _ h =>
    subst h
    exact ⟨rfl, rfl⟩
  | beside _ _ _ h =>
    subst h
    exact .refl _

theorem Deed.Touches.samePlace {α : Type} {d : Deed α} (h : d.Touches g x n n') :
    n.SamePlace n' := by
  cases d with
  | arrange id layout =>
    obtain ⟨-, rfl⟩ := h
    exact ⟨rearrange_owner _ _, rearrange_interior _ _⟩
  | observe phase id p o =>
    obtain ⟨-, rfl⟩ := h
    exact ⟨rfl, rfl⟩
  | recomputeMap id => exact h.2.2.1
  | markRecompute id =>
    obtain ⟨-, q, -, rfl⟩ := h
    exact ⟨rfl, rfl⟩
  | adopt id strategy =>
    obtain ⟨-, m, -, rfl⟩ := h
    exact ⟨rfl, rfl⟩
  | pull id => exact h.2.samePlace
  | _ => exact h.elim

/-- **A node that is there before and after is in the same place.** -/
theorem Happening.samePlace (h : g.Sound) (k : Happening) (hn : g.node x = .ok n)
    (hn' : (k.after g).node x = .ok n') : n.SamePlace n' := by
  rcases k.same_or_touches h hn hn' with rfl | htouched
  · exact .refl _
  cases k with
  | deed d => exact Deed.Touches.samePlace htouched
  | taken phase id p =>
    obtain ⟨-, rfl⟩ := htouched
    exact ⟨rfl, rfl⟩
  | restored phase id p os =>
    obtain ⟨-, rfl⟩ := htouched
    exact ⟨rfl, rfl⟩
  | stored id p v =>
    obtain ⟨-, rfl⟩ := htouched
    exact ⟨rfl, rfl⟩

end SpatialAudio
