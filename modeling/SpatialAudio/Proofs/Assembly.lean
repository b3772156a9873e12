import SpatialAudio.Proofs.Lifecycle
import SpatialAudio.Session.Panner

/-!
# Proofs/Assembly — what making a panner leaves behind

Every operation that a panner is made with changes what one handle names (`Wrote`), or adds one
connection, or turns plain nodes into a subgraph (`makeSubgraph_eq_ok`).  A multipanner is made of
five new nodes and two connections (`Assembled`); only a dataset without responses keeps it from
being made, and then nothing has changed (`run_assemble`).
-/

namespace SpatialAudio

/-! ## Layouts in bounds -/

theorem Layout.inBounds_spread {k : Nat} : (Layout.spread k).InBounds ↔ k ≤ maxChannels := by
  refine ⟨fun h => h.outputs_le, fun h => ⟨?_, h, ?_, ?_⟩⟩
  · change 1 ≤ maxChannels
    decide
  · simp [Layout.spread]
  · simp [Layout.spread]

theorem Layout.inBounds_symmetric {k : Nat} : (Layout.symmetric k).InBounds ↔ k ≤ maxChannels := by
  refine ⟨fun h => h.outputs_le, fun h => ⟨h, h, ?_, ?_⟩⟩
  · simp [Layout.symmetric]
  · simp [Layout.symmetric]

theorem Layout.inBounds_empty : Layout.empty.InBounds :=
  ⟨Nat.zero_le _, Nat.zero_le _, by simp [Layout.empty], by simp [Layout.empty]⟩

/-- Registers an observer behind all others. -/
def Properties.register (ps : Properties) (r : Phase × PropertyId × Observer) : Properties :=
  ps.modify r.2.1 fun x => x.setObservers r.1 (x.observers r.1 ++ [r.2.2])

namespace Graph

variable {g g' g'' : Graph} {id : NodeId} {i : Nat} {n n' : Node} {l : Layout} {p : PropertyId}

/-! ## Writing one node -/

theorem Wrote.self (h : g.Wrote id n g') : g'.node id = .ok n := by rw [h.node, if_pos rfl]

theorem Wrote.other (h : g.Wrote id n g') {x : NodeId} (hx : x ≠ id) : g'.node x = g.node x := by
  rw [h.node, if_neg hx]

theorem Wrote.refl (hn : g.node id = .ok n) (hs : g.Sound) : g.Wrote id n g where
  node x := by
    split
    · next hx => rw [hx, hn]
    · rfl
  edges := rfl
  sound := hs

theorem Wrote.trans (h : g.Wrote id n g') (h' : g'.Wrote id n' g'') : g.Wrote id n' g'' where
  node x := by
    rw [h'.node, h.node]
    split <;> rfl
  edges := h'.edges.trans h.edges
  sound := h'.sound

theorem Sound.wrote (h : g.Sound) (hn : g.node id = .ok n) {f : Node → Node}
    (hf : n.Alike (f n)) : g.Wrote id (f n) (g.modifyAt id.index f) where
  node := node_modifyAt f hn
  edges := rfl
  sound := by
    refine h.alike (within_modifyAt .refl fun m hm => ?_)
    rw [nodeAt?_of_node hn] at hm
    cases hm
    exact hf

theorem Sound.wrote_applyLayout (h : g.Sound) (hn : g.node id = .ok n) (hl : l.InBounds)
    (hedges : g.checkEdges id.index l = .ok ()) :
    ∃ g', g.applyLayout id l = .ok g' ∧ g.Wrote id (rearrange l n) g' := by
  have happly := (applyLayoutAt_eq_ok h.wellFormed (nodeAt?_of_node hn)).mpr ⟨hl, hedges, rfl⟩
  refine ⟨_, (applyLayout_eq_ok h.wellFormed hn).mpr ⟨hl, hedges, rfl⟩, ?_⟩
  exact ⟨node_modifyAt _ hn, rfl, h.applyLayoutAt (nodeAt?_of_node hn) happly⟩

/-- Giving a node a layout writes that node. -/
theorem Sound.exists_applyLayout (h : g.Sound) (happly : g.applyLayout id l = .ok g') :
    ∃ n, g.node id = .ok n ∧ g.Wrote id (rearrange l n) g' := by
  obtain ⟨n, hn⟩ : ∃ n, g.node id = .ok n := by
    obtain ⟨i, hi, -⟩ := bind_eq_ok.mp happly
    exact (index_eq_ok.mp (liftM_error_eq_ok.mp hi)).1
  obtain ⟨hl, hedges, -⟩ := (applyLayout_eq_ok h.wellFormed hn).mp happly
  obtain ⟨g₁, happly', hw⟩ := h.wrote_applyLayout hn hl hedges
  rw [happly] at happly'
  cases happly'
  exact ⟨n, hn, hw⟩

/-! ## Properties -/

theorem property_eq_ok {x : Property} :
    g.property id p = .ok x ↔ ∃ n, g.node id = .ok n ∧ n.properties.get? p = some x := by
  rw [property, bind_eq_ok]
  refine exists_congr fun n => and_congr_right fun _ => ?_
  cases n.properties.get? p with
  | none => simp
  | some y => simp

theorem modifyProperty_of_node (hn : g.node id = .ok n) (p : PropertyId) (f : Property → Property) :
    g.modifyProperty id p f
      = g.modifyAt id.index fun n => { n with properties := n.properties.modify p f } := by
  rw [modifyProperty, if_pos (contains_iff.mpr ⟨n, hn⟩)]

theorem alike_modifyProperty (g : Graph) (id : NodeId) (p : PropertyId) (f : Property → Property) :
    g.Alike (g.modifyProperty id p f) := by
  rw [modifyProperty]
  split
  · refine alike_modifyAt ?_ _
    exact fun n => ⟨⟨rfl, rfl, rfl⟩, rfl, rfl⟩
  · exact .refl .refl g

theorem Sound.wrote_modifyProperty (h : g.Sound) (hn : g.node id = .ok n) (p : PropertyId)
    (f : Property → Property) :
    g.Wrote id { n with properties := n.properties.modify p f } (g.modifyProperty id p f) := by
  rw [modifyProperty_of_node hn]
  exact h.wrote (f := fun n => { n with properties := n.properties.modify p f }) hn
    ⟨⟨rfl, rfl, rfl⟩, rfl, rfl⟩

/-- Changing a property writes one node, or nothing. -/
theorem Sound.modifyProperty_cases (h : g.Sound) (id : NodeId) (p : PropertyId)
    (f : Property → Property) : g.modifyProperty id p f = g ∨ ∃ n, g.node id = .ok n ∧
      g.Wrote id { n with properties := n.properties.modify p f } (g.modifyProperty id p f) := by
  by_cases hex : ∃ n, g.node id = .ok n
  · obtain ⟨n, hn⟩ := hex
    exact .inr ⟨n, hn, h.wrote_modifyProperty hn p f⟩
  · refine .inl ?_
    rw [modifyProperty, if_neg]
    rw [contains_iff]
    exact hex

theorem addObserver_eq_ok {phase : Phase} {o : Observer} : g.addObserver phase id p o = .ok g' ↔
    (∃ x, g.property id p = .ok x) ∧
      g' = g.modifyProperty id p fun x => x.setObservers phase (x.observers phase ++ [o]) := by
  rw [addObserver, bind_eq_ok]
  constructor
  · rintro ⟨x, hx, hg⟩
    exact ⟨⟨x, hx⟩, (pure_eq_ok.mp hg).symm⟩
  · rintro ⟨⟨x, hx⟩, rfl⟩
    exact ⟨x, hx, rfl⟩

/-- Registering an observer of a property that is there. -/
theorem run_addObserver (h : g.Sound) (hn : g.node id = .ok n) (r : Phase × PropertyId × Observer)
    (hp : (n.properties.get? r.2.1).isSome) :
    ∃ g', (GraphM.change fun g => g.addObserver r.1 id r.2.1 r.2.2).run g = (.ok (), g') ∧
      g.Wrote id { n with properties := n.properties.register r } g' := by
  obtain ⟨x, hx⟩ := Option.isSome_iff_exists.mp hp
  refine ⟨_, ?_, h.wrote_modifyProperty hn r.2.1 _⟩
  rw [run_change, addObserver_eq_ok.mpr ⟨⟨x, property_eq_ok.mpr ⟨n, hn, hx⟩⟩, rfl⟩]

theorem isSome_register (ps : Properties) (r : Phase × PropertyId × Observer) (q : PropertyId) :
    ((ps.register r).get? q).isSome = (ps.get? q).isSome := by
  rw [Properties.register, Properties.get?_modify]
  split <;> simp

/-- Registering observers of properties that are there. -/
theorem run_addObservers (h : g.Sound) (hn : g.node id = .ok n)
    (rs : List (Phase × PropertyId × Observer))
    (hp : ∀ r ∈ rs, (n.properties.get? r.2.1).isSome) :
    ∃ g', (rs.forM fun (phase, p, o) => GraphM.change fun g => g.addObserver phase id p o).run g
        = (.ok (), g') ∧
      g.Wrote id { n with properties := rs.foldl Properties.register n.properties } g' := by
  induction rs generalizing g n with
  | nil =>
    exact ⟨g, rfl, .refl hn h⟩
  | cons r rs ih =>
    obtain ⟨g₁, hrun, hw⟩ := run_addObserver h hn r (hp r List.mem_cons_self)
    obtain ⟨g₂, hrun', hw'⟩ := ih hw.sound hw.self fun q hq => by
      rw [isSome_register]
      exact hp q (List.mem_cons_of_mem r hq)
    refine ⟨g₂, ?_, hw.trans hw'⟩
    exact (run_bind_ok hrun).trans hrun'

/-! ## Maps of amplitude panners -/

/-- The layout that the map described by the properties needs. -/
def mapLayout (ps : Properties) : Layout := .spread (AmplitudePanner.describedMap ps).outputs

/-- The panner with the map its properties describe waiting. -/
def staged (q : AmplitudePanner) (n : Node) : Node :=
  { n with kind := .amplitudePanner (q.stage n.properties).1 }

/-- The map in effect is the one that the properties describe, and no other waits. -/
def Current (n : Node) : Prop :=
  n.kind = .amplitudePanner ⟨AmplitudePanner.describedMap n.properties, none⟩

/-- The map that was staged takes effect with any layout. -/
theorem current_rearrange_staged (q : AmplitudePanner) (n : Node) (l : Layout) :
    Current (rearrange l (staged q n)) := by
  rw [Current, rearrange_kind, rearrange_properties]
  rfl

theorem run_recomputeMap (hn : g.node id = .ok n) {q : AmplitudePanner}
    (hk : n.kind = .amplitudePanner q) :
    (recomputeMap id).run g
      = match (g.modifyAt id.index fun _ => staged q n).applyLayout id (mapLayout n.properties) with
        | .ok g' => (.ok (), g')
        | .error e => (.error e, (g.modifyAt id.index fun _ => staged q n).modifyAt id.index
            fun m => { m with kind := .amplitudePanner q.discard }) := by
  have hread : (GraphM.read fun g => g.node id).run g = (.ok n, g) := by
    rw [run_read, hn]
    rfl
  have hcast : (GraphM.read fun _ => n.kind.asAmplitudePanner).run g = (.ok q, g) := by
    rw [run_read, hk]
    rfl
  have hstage : (g.modifyAt id.index fun m =>
      { m with kind := .amplitudePanner (q.stage n.properties).1 })
        = g.modifyAt id.index fun _ => staged q n := modifyAt_congr (nodeAt?_of_node hn) _ rfl
  rw [recomputeMap, run_bind_ok hread, run_bind_ok hcast]
  change (match (g.modifyAt id.index fun m =>
      { m with kind := NodeKind.amplitudePanner (q.stage n.properties).1 }).applyLayout id
        (mapLayout n.properties) with
    | .ok g' => set g'
    | .error e => do
      modify fun g => g.modifyAt id.index fun n => { n with kind := .amplitudePanner q.discard }
      throw e : GraphM Unit).run (g.modifyAt id.index fun m =>
        { m with kind := .amplitudePanner (q.stage n.properties).1 }) = _
  rw [hstage]
  cases (g.modifyAt id.index fun _ => staged q n).applyLayout id (mapLayout n.properties) <;> rfl

/-- Only amplitude panners have a map. -/
theorem run_recomputeMap_of_not (hn : ∀ n q, g.node id = .ok n → n.kind ≠ .amplitudePanner q) :
    ∃ e, (recomputeMap id).run g = (.error (.refused e), g) := by
  rw [recomputeMap]
  cases hnode : g.node id with
  | error e =>
    refine ⟨e, run_bind_error ?_⟩
    rw [run_read, hnode]
    rfl
  | ok n =>
    have hread : (GraphM.read fun g => g.node id).run g = (.ok n, g) := by
      rw [run_read, hnode]
      rfl
    refine ⟨.typeMismatch .amplitudePanner n.kind.type, ?_⟩
    rw [run_bind_ok hread]
    refine run_bind_error ?_
    rw [run_read]
    cases hk : n.kind with
    | amplitudePanner q => exact absurd hk (hn n q hnode)
    | _ => rfl

theorem alike_staged (q : AmplitudePanner) (n : Node) : n.Alike (staged q n) :=
  ⟨⟨rfl, rfl, rfl⟩, rfl, rfl⟩

/-- Rebuilding a map writes an amplitude panner, or nothing. -/
theorem Sound.recomputeMap_cases (h : g.Sound) (id : NodeId) :
    ((Graph.recomputeMap id).run g).2 = g ∨ ∃ n n' q q', g.node id = .ok n ∧
      n.kind = .amplitudePanner q ∧ n'.kind = .amplitudePanner q' ∧ n'.owner = n.owner ∧
      g.Wrote id n' ((Graph.recomputeMap id).run g).2 := by
  by_cases hex : ∃ n q, g.node id = .ok n ∧ n.kind = .amplitudePanner q
  · obtain ⟨n, q, hn, hk⟩ := hex
    have hw := h.wrote (f := fun _ => staged q n) hn (alike_staged q n)
    rw [run_recomputeMap hn hk]
    split
    · next g' happly =>
      obtain ⟨n', hn', hw'⟩ := hw.sound.exists_applyLayout happly
      cases hw.self.symm.trans hn'
      exact .inr ⟨n, rearrange (mapLayout n.properties) (staged q n), q, _, hn, hk,
        rearrange_kind _ _, rearrange_owner _ _, hw.trans hw'⟩
    · have hw' := hw.sound.wrote (f := fun m => { m with kind := .amplitudePanner q.discard })
        hw.self ⟨⟨rfl, rfl, rfl⟩, rfl, rfl⟩
      exact .inr ⟨n, { staged q n with kind := .amplitudePanner q.discard }, q, _, hn, hk, rfl, rfl,
        hw.trans hw'⟩
  · obtain ⟨e, hrun⟩ := run_recomputeMap_of_not fun n q hn hk => hex ⟨n, q, hn, hk⟩
    rw [hrun]
    exact .inl rfl

/-- **Rebuilding a map keeps a graph sound, whether its layout is admitted or not.** -/
theorem Sound.recomputeMap (h : g.Sound) (id : NodeId) :
    ((Graph.recomputeMap id).run g).2.Sound := by
  rcases h.recomputeMap_cases id with hsame | ⟨_, _, _, _, -, -, -, -, hw⟩
  · rw [hsame]
    exact h
  · exact hw.sound

/-- **A map whose layout every connection accepts is put into effect.** -/
theorem Sound.wrote_recomputeMap (h : g.Sound) (hn : g.node id = .ok n) {q : AmplitudePanner}
    (hk : n.kind = .amplitudePanner q) (hl : (mapLayout n.properties).InBounds)
    (hedges : g.checkEdges id.index (mapLayout n.properties) = .ok ()) :
    ∃ g', (Graph.recomputeMap id).run g = (.ok (), g') ∧
      g.Wrote id (rearrange (mapLayout n.properties) (staged q n)) g' := by
  have hw := h.wrote (f := fun _ => staged q n) hn (alike_staged q n)
  have hlayout : ∀ j, (g.modifyAt id.index fun _ => staged q n).layoutAt j = g.layoutAt j := by
    refine fun j => Within.layoutAt (within_modifyAt .refl fun m hm => ?_) Node.Alike.toSameShape j
    rw [nodeAt?_of_node hn] at hm
    cases hm
    exact alike_staged q n
  obtain ⟨g', happly, hw'⟩ := hw.sound.wrote_applyLayout hw.self hl (l := mapLayout n.properties) (by
    simpa only [checkEdges, incoming, outgoing, hlayout, edges_modifyAt] using hedges)
  refine ⟨g', ?_, hw.trans hw'⟩
  rw [run_recomputeMap hn hk, happly]

/-! ## Subgraphs -/

theorem foldlM_owned (owner : NodeId) {inside : List NodeId}
    (hin : ∀ x ∈ inside, ∃ n, g.node x = .ok n) :
    ∃ g', inside.foldlM (fun (g : Graph) x => do
        return g.modifyAt (← g.index x) fun n => { n with owner := some owner }) g
          = (.ok g' : Except Error Graph) ∧
      Within Node.SameShape g g' ∧
      ∀ x, g'.node x = if x ∈ inside then (g.node x).map fun n => { n with owner := some owner }
        else g.node x := by
  induction inside generalizing g with
  | nil => exact ⟨g, rfl, .refl .refl g, fun x => rfl⟩
  | cons y inside ih =>
    obtain ⟨n, hn⟩ := hin y List.mem_cons_self
    have hnode := node_modifyAt (fun n => { n with owner := some owner }) hn
    have hshape : Within Node.SameShape g
        (g.modifyAt y.index fun n => { n with owner := some owner }) := by
      refine within_modifyAt .refl ?_
      exact fun n _ => ⟨rfl, rfl, rfl⟩
    have hrest : ∀ x ∈ inside, ∃ n,
        (g.modifyAt y.index fun n => { n with owner := some owner }).node x = .ok n := by
      intro x hx
      rw [hnode]
      split
      · exact ⟨_, rfl⟩
      · exact hin x (List.mem_cons_of_mem y hx)
    obtain ⟨g', hfold, hwithin, hview⟩ := ih hrest
    have hindex : g.index y = .ok y.index := index_eq_ok.mpr ⟨⟨n, hn⟩, rfl⟩
    refine ⟨g', ?_, hshape.trans .trans hwithin, fun x => ?_⟩
    · rw [List.foldlM_cons, hindex]
      exact hfold
    · rw [hview, hnode]
      by_cases hxy : x = y
      · subst hxy
        rw [if_pos rfl, if_pos List.mem_cons_self, hn]
        split <;> rfl
      · rw [if_neg hxy]
        simp only [List.mem_cons, hxy, false_or]

/-- A graph stays nested when plain nodes become the interior of a plain node. -/
theorem Nested.enclose (h : g.Nested) {owner : NodeId} {ends : Interior} {inside : List NodeId}
    (hin : ∀ x ∈ inside, ∃ n, g.node x = .ok n ∧ n.owner = none ∧ n.interior = none)
    (hn : g.node owner = .ok n) (hown : n.owner = none) (howner : owner ∉ inside)
    (hinput : ends.input ∈ inside) (houtput : ends.output ∈ inside)
    (hview : ∀ x, g'.node x = if x = owner then .ok { n with interior := some ends }
      else if x ∈ inside then (g.node x).map fun n => { n with owner := some owner }
      else g.node x) : g'.Nested := by
  refine ⟨?_, ?_⟩
  · intro id m e hm he x hx
    rw [hview] at hm
    split at hm
    · next hid =>
      cases hm
      cases he
      have hmem : x ∈ inside := by
        rcases hx with rfl | rfl
        · exact hinput
        · exact houtput
      obtain ⟨k, hk, -, hplain⟩ := hin x hmem
      refine ⟨{ k with owner := some owner }, ?_, hplain, by rw [hid]⟩
      rw [hview, if_neg (ne_of_mem_of_not_mem hmem howner), if_pos hmem, hk]
      rfl
    · split at hm
      · next hmem =>
        obtain ⟨k, hk, -, hplain⟩ := hin id hmem
        rw [hk] at hm
        cases hm
        rw [hplain] at he
        cases he
      · obtain ⟨k, hk, hplain, hko⟩ := h.ends id m e hm he x hx
        have hne : x ≠ owner := by
          rintro rfl
          rw [hn] at hk
          cases hk
          rw [hown] at hko
          cases hko
        have hnot : x ∉ inside := by
          intro hmem
          obtain ⟨k', hk', hko', -⟩ := hin x hmem
          rw [hk] at hk'
          cases hk'
          rw [hko] at hko'
          cases hko'
        exact ⟨k, by rw [hview, if_neg hne, if_neg hnot, hk], hplain, hko⟩
  · intro id m o hm ho
    rw [hview] at hm
    split at hm
    · cases hm
      rw [hown] at ho
      cases ho
    · split at hm
      · next hmem =>
        obtain ⟨k, hk, -, hplain⟩ := hin id hmem
        rw [hk] at hm
        cases hm
        cases ho
        exact ⟨hplain, _, by rw [hview, if_pos rfl], by simp⟩
      · obtain ⟨hplain, k, hk, hsome⟩ := h.owned id m o hm ho
        refine ⟨hplain, ?_⟩
        by_cases ho' : o = owner
        · exact ⟨_, by rw [hview, if_pos ho'], by simp⟩
        · have hnot : o ∉ inside := by
            intro hmem
            obtain ⟨k', hk', -, hplain'⟩ := hin o hmem
            rw [hk] at hk'
            cases hk'
            exact hsome hplain'
          exact ⟨k, by rw [hview, if_neg ho', if_neg hnot, hk], hsome⟩

/-- **Plain nodes become the interior of a plain node.** -/
theorem Sound.makeSubgraph (h : g.Sound) {owner : NodeId} (ends : Interior) {inside : List NodeId}
    (hin : ∀ x ∈ inside, ∃ n, g.node x = .ok n ∧ n.owner = none ∧ n.interior = none)
    (hn : g.node owner = .ok n) (hown : n.owner = none) (howner : owner ∉ inside)
    (hinput : ends.input ∈ inside) (houtput : ends.output ∈ inside) :
    ∃ g', g.makeSubgraph owner ends inside = .ok g' ∧ g'.edges = g.edges ∧ g'.Sound ∧
      ∀ x, g'.node x = if x = owner then .ok { n with interior := some ends }
        else if x ∈ inside then (g.node x).map fun n => { n with owner := some owner }
        else g.node x := by
  obtain ⟨g₁, hfold, hwithin, hview⟩ := foldlM_owned owner fun x hx => (hin x hx).imp fun _ => And.left
  have hn₁ : g₁.node owner = .ok n := by rw [hview, if_neg howner, hn]
  have hview' : ∀ x, (g₁.modifyAt owner.index fun n => { n with interior := some ends }).node x
      = if x = owner then .ok { n with interior := some ends }
        else if x ∈ inside then (g.node x).map fun n => { n with owner := some owner }
        else g.node x := by
    intro x
    rw [node_modifyAt _ hn₁, hview]
  have hshape : Within Node.SameShape g
      (g₁.modifyAt owner.index fun n => { n with interior := some ends }) := by
    refine hwithin.trans .trans (within_modifyAt .refl ?_)
    exact fun n _ => ⟨rfl, rfl, rfl⟩
  have hnested := h.nested.enclose hin hn hown howner hinput houtput hview'
  refine ⟨_, ?_, hshape.edges, h.within (fun hR => hR) hshape hnested, hview'⟩
  obtain ⟨a, ha, -⟩ := hin _ hinput
  obtain ⟨b, hb, -⟩ := hin _ houtput
  have hindex : g₁.index owner = .ok owner.index := index_eq_ok.mpr ⟨⟨n, hn₁⟩, rfl⟩
  unfold Graph.makeSubgraph
  refine bind_eq_ok.mpr ⟨a, ha, bind_eq_ok.mpr ⟨b, hb, bind_eq_ok.mpr ⟨g₁, hfold, ?_⟩⟩⟩
  rw [hindex]
  rfl

/-! ## Panners -/

/-- **Plain nodes are connected if the slots are equally wide and nothing enters the source.** -/
theorem Sound.connect_plain (h : g.Sound) {a b : NodeId} {o k : Nat} {m : Node}
    (ha : g.node a = .ok n) (hown : n.owner = none) (hint : n.interior = none)
    (hb : g.node b = .ok m) (hown' : m.owner = none) (hint' : m.interior = none)
    {r r' : ChannelRange} (hr : n.layout.outputSlots[o]? = some r)
    (hr' : m.layout.inputSlots[k]? = some r') (hw : r.count = r'.count)
    (hno : ∀ e ∈ g.edges, e.target ≠ a.index ∧ e.target ≠ b.index) (hab : b.index ≠ a.index) :
    ∃ g', g.connect a o b k = .ok g' ∧ g'.edges = ⟨a.index, o, b.index, k⟩ :: g.edges ∧
      (∀ x, g'.node x = g.node x) ∧ g'.Sound := by
  have hs := h.nested.sourceSide ha
  have ht := h.nested.targetSide hb
  rw [Node.sourceEnd_of_plain hint] at hs
  rw [Node.targetEnd_of_plain hint'] at ht
  have hmem : ⟨a.index, o, b.index, k⟩ ∉ g.edges := fun he => (hno _ he).2 rfl
  have hjoin : g.Joins ⟨a.index, o, b.index, k⟩ := by
    refine ⟨r, r', ?_, ?_, hw⟩
    · rw [layoutAt_of_nodeAt? (nodeAt?_of_node ha)]
      exact hr
    · rw [layoutAt_of_nodeAt? (nodeAt?_of_node hb)]
      exact hr'
  have hconnect : g.connectAt a.index o b.index k
      = .ok { g with edges := ⟨a.index, o, b.index, k⟩ :: g.edges }.reschedule := by
    refine connectAt_eq_ok.mpr ⟨_, _, hs, ht, hjoin, ?_, by rw [if_neg hmem]⟩
    exact not_leads (fun e he => (hno e he).1) hab
  refine ⟨_, connect_eq_ok.mpr ⟨⟨n, ha, hown⟩, ⟨m, hb, hown'⟩, hconnect⟩, edges_reschedule _, ?_,
    h.connectAt hconnect⟩
  intro x
  rw [node_reschedule]
  rfl

/-- What a handle names, up to the blocks. -/
def Holds (g : Graph) (x : NodeId) (k : NodeKind) (ps : Properties) (l : Layout)
    (owner : Option NodeId) (interior : Option Interior) : Prop :=
  ∃ inputs outputs, g.node x = .ok ⟨k, ps, l, inputs, outputs, owner, interior⟩

/-- The properties of an HRTF panner that follows changes of its direction. -/
def hrtfProperties : Properties :=
  (HrtfPanner.properties.register (.after, .azimuth, .markRecompute)).register
    (.after, .elevation, .markRecompute)

/-- Making an HRTF panner. -/
theorem run_createHrtfPanner (h : g.Sound) {data : Dataset} {q : HrtfPanner}
    (hq : HrtfPanner.new data = .ok q) :
    ∃ g' n, (createHrtfPanner data).run g = (.ok g.nextHandle, g') ∧ g.Wrote g.nextHandle n g' ∧
      n.kind = .hrtfPanner q ∧ n.properties = hrtfProperties ∧ n.layout = .spread 2 ∧
      n.owner = none ∧ n.interior = none := by
  have hkind : (hrtfKind data).run g = (.ok (.hrtfPanner q), g) := by
    rw [hrtfKind, hq]
    rfl
  obtain ⟨g₁, hrun₁, hw₁⟩ := run_associate h (.hrtfPanner q)
    (Layout.inBounds_spread.mpr (by decide : 2 ≤ maxChannels))
  obtain ⟨g₂, hrun₂, hw₂⟩ :=
    run_addObserver hw₁.sound hw₁.self (.after, .azimuth, .markRecompute) rfl
  obtain ⟨g₃, hrun₃, hw₃⟩ :=
    run_addObserver hw₂.sound hw₂.self (.after, .elevation, .markRecompute) rfl
  refine ⟨g₃, _, ?_, (hw₁.trans hw₂).trans hw₃, rfl, rfl, rfl, rfl, rfl⟩
  rw [createHrtfPanner, run_bind_ok hkind, run_bind_ok hrun₁, run_bind_ok hrun₂, run_bind_ok hrun₃]
  rfl

/-- An HRTF panner is made unless its dataset has no responses. -/
theorem run_createHrtfPanner_of_error {data : Dataset} {a : Abort}
    (hq : HrtfPanner.new data = .error a) :
    (createHrtfPanner data).run g = (.error (.aborted a), g) := by
  rw [createHrtfPanner]
  refine run_bind_error ?_
  rw [hrtfKind, hq]
  rfl

/-- A new amplitude panner has the map of its default properties in effect, and none waits. -/
def freshPanner : AmplitudePanner := ⟨AmplitudePanner.describedMap AmplitudePanner.properties, none⟩

/-- A new amplitude panner pans over two speakers. -/
theorem mapLayout_default : mapLayout AmplitudePanner.properties = .spread 2 := rfl

/-- Making an amplitude panner. -/
theorem run_createAmplitudePanner (h : g.Sound) :
    ∃ g' n, createAmplitudePanner.run g = (.ok g.nextHandle, g') ∧ g.Wrote g.nextHandle n g' ∧
      n.kind = .amplitudePanner freshPanner ∧ n.properties = AmplitudePanner.properties ∧
      n.layout = .spread 2 ∧ n.owner = none ∧ n.interior = none := by
  obtain ⟨g₁, hrun₁, hw₁⟩ := run_associate h (.amplitudePanner .new)
    (Layout.inBounds_spread.mpr (by decide : 0 ≤ maxChannels))
  have hmap : mapLayout (arrange (.spread 0) (blank (.amplitudePanner .new))).properties
      = .spread 2 := mapLayout_default
  have hno : ∀ e ∈ g₁.edges, e.source ≠ g.nextHandle.index ∧ e.target ≠ g.nextHandle.index := by
    intro e he
    rw [hw₁.edges] at he
    exact h.wellFormed.ne_of_vacant h.arena.nodeAt?_nextSlot he
  have hcheck : g₁.checkEdges g.nextHandle.index (.spread 2) = .ok () := by
    refine checkEdges_eq_ok.mpr ⟨fun e he => ?_, fun e he => ?_⟩
    · obtain ⟨he, ht⟩ := List.mem_filter.mp he
      exact absurd (of_decide_eq_true ht) (hno e he).2
    · obtain ⟨he, hs⟩ := List.mem_filter.mp he
      exact absurd (of_decide_eq_true hs) (hno e he).1
  obtain ⟨g₂, hrun₂, hw₂⟩ := hw₁.sound.wrote_recomputeMap hw₁.self rfl
    (by rw [hmap]; exact Layout.inBounds_spread.mpr (by decide)) (by rw [hmap]; exact hcheck)
  rw [hmap] at hw₂
  refine ⟨g₂, _, ?_, hw₁.trans hw₂, rearrange_kind _ _, ?_, rearrange_layout _ _, ?_, ?_⟩
  · rw [createAmplitudePanner, run_bind_ok hrun₁, run_bind_ok hrun₂]
    rfl
  · rw [rearrange_properties]
    rfl
  · rw [rearrange_owner]
    rfl
  · rw [rearrange_interior]
    rfl

end Graph

/-! ## Multipanners -/

namespace Multipanner

open SpatialAudio.Graph

/-- The nodes that a multipanner stands for. -/
def inside (m : Multipanner) : List NodeId := [m.input, m.output, m.hrtf, m.amplitude]

theorem mem_inside {m : Multipanner} {x : NodeId} : x ∈ m.inside ↔
    x = m.input ∨ x = m.output ∨ x = m.hrtf ∨ x = m.amplitude := by
  simp only [inside, List.mem_cons, List.not_mem_nil, or_false]

theorem notMem_inside {m : Multipanner} {x : NodeId} : x ∉ m.inside ↔
    x ≠ m.input ∧ x ≠ m.output ∧ x ≠ m.hrtf ∧ x ≠ m.amplitude := by
  simp only [mem_inside, not_or]

theorem input_mem (m : Multipanner) : m.input ∈ m.inside := mem_inside.mpr (.inl rfl)

theorem output_mem (m : Multipanner) : m.output ∈ m.inside := mem_inside.mpr (.inr (.inl rfl))

theorem hrtf_mem (m : Multipanner) : m.hrtf ∈ m.inside := mem_inside.mpr (.inr (.inr (.inl rfl)))

theorem amplitude_mem (m : Multipanner) : m.amplitude ∈ m.inside :=
  mem_inside.mpr (.inr (.inr (.inr rfl)))

theorem nodup_map_inside {α : Type} {m : Multipanner} {f : NodeId → α} : (m.inside.map f).Nodup ↔
    (f m.input ≠ f m.output ∧ f m.input ≠ f m.hrtf ∧ f m.input ≠ f m.amplitude) ∧
      (f m.output ≠ f m.hrtf ∧ f m.output ≠ f m.amplitude) ∧ f m.hrtf ≠ f m.amplitude := by
  simp [inside]

theorem nodup_inside {m : Multipanner} : m.inside.Nodup ↔
    (m.input ≠ m.output ∧ m.input ≠ m.hrtf ∧ m.input ≠ m.amplitude) ∧
      (m.output ≠ m.hrtf ∧ m.output ≠ m.amplitude) ∧ m.hrtf ≠ m.amplitude := by
  simpa using nodup_map_inside (m := m) (f := id)

/-- The properties of a multipanner with its observers. -/
def observed : Properties := observers.foldl Properties.register properties

/-- The nodes and connections of a new multipanner, whose output stage nothing feeds yet. -/
structure Assembled (g : Graph) (id : NodeId) (m : Multipanner) (g' : Graph) : Prop where
  fresh : ∀ x ∈ id :: m.inside, ∀ n, g.node x ≠ .ok n
  nodup : (id :: m.inside).Nodup
  others : ∀ x, x ∉ id :: m.inside → g'.node x = g.node x
  strategy : m.strategy = .stereo
  panner : g'.Holds id (.multipanner m) observed .empty none (some ⟨m.input, m.output⟩)
  input : g'.Holds m.input .gain .standard (.symmetric 1) (some id) none
  output : g'.Holds m.output .gain .standard (.symmetric 0) (some id) none
  hrtf : ∃ q, g'.Holds m.hrtf (.hrtfPanner q) hrtfProperties (.spread 2) (some id) none
  amplitude : g'.Holds m.amplitude (.amplitudePanner freshPanner) AmplitudePanner.properties
    (.spread 2) (some id) none
  edges : g'.edges = ⟨m.input.index, 0, m.amplitude.index, 0⟩
    :: ⟨m.input.index, 0, m.hrtf.index, 0⟩ :: g.edges
  sound : g'.Sound

variable {g : Graph} {data : Dataset}

theorem find_eq_ok {id : NodeId} {k : Multipanner} :
    find g id = .ok k ↔ ∃ n, g.node id = .ok n ∧ n.kind = .multipanner k := by
  rw [find, bind_eq_ok]
  refine exists_congr fun n => and_congr_right fun _ => ?_
  cases n.kind <;> simp [NodeKind.asMultipanner]

/-- The four nodes inside, before they are joined. -/
structure Parts (g : Graph) (m : Multipanner) (g' : Graph) : Prop where
  fresh : ∀ x ∈ m.inside, ∀ n, g.node x ≠ .ok n
  nodup : m.inside.Nodup
  others : ∀ x, x ∉ m.inside → g'.node x = g.node x
  input : g'.Holds m.input .gain .standard (.symmetric 1) none none
  output : g'.Holds m.output .gain .standard (.symmetric 0) none none
  hrtf : ∃ q, g'.Holds m.hrtf (.hrtfPanner q) hrtfProperties (.spread 2) none none
  amplitude : g'.Holds m.amplitude (.amplitudePanner freshPanner) AmplitudePanner.properties
    (.spread 2) none none
  quiet : ∀ e ∈ g'.edges, ∀ x ∈ m.inside, e.target ≠ x.index
  edges : g'.edges = g.edges
  sound : g'.Sound

theorem run_parts (h : g.Sound) {q : HrtfPanner} (hq : HrtfPanner.new data = .ok q) :
    ∃ m g₁ g₂ g₃ g₄, (createHrtfPanner data).run g = (.ok m.hrtf, g₁) ∧
      createAmplitudePanner.run g₁ = (.ok m.amplitude, g₂) ∧
      (associate .gain (.symmetric 1)).run g₂ = (.ok m.input, g₃) ∧
      (associate .gain (.symmetric 0)).run g₃ = (.ok m.output, g₄) ∧
      m.strategy = .stereo ∧ Parts g m g₄ ∧
      g₄.Holds m.hrtf (.hrtfPanner q) hrtfProperties (.spread 2) none none := by
  obtain ⟨g₁, nh, hrun₁, hw₁, hkh, hph, hlh, hoh, hih⟩ := run_createHrtfPanner h hq
  obtain ⟨g₂, na, hrun₂, hw₂, hka, hpa, hla, hoa, hia⟩ := run_createAmplitudePanner hw₁.sound
  obtain ⟨g₃, hrun₃, hw₃⟩ := run_associate hw₂.sound .gain
    (Layout.inBounds_symmetric.mpr (by decide : 1 ≤ maxChannels))
  obtain ⟨g₄, hrun₄, hw₄⟩ := run_associate hw₃.sound .gain
    (Layout.inBounds_symmetric.mpr (by decide : 0 ≤ maxChannels))
  have hfreshH := h.arena.node_nextHandle
  have hfreshA := hw₁.sound.arena.node_nextHandle
  have hfreshI := hw₂.sound.arena.node_nextHandle
  have hfreshO := hw₃.sound.arena.node_nextHandle
  have hvacantH := h.arena.nodeAt?_nextSlot
  have hvacantA := hw₁.sound.arena.nodeAt?_nextSlot
  have hvacantI := hw₂.sound.arena.nodeAt?_nextSlot
  have hvacantO := hw₃.sound.arena.nodeAt?_nextSlot
  have hedges₂ := hw₂.edges.trans hw₁.edges
  have hedges₃ := hw₃.edges.trans hedges₂
  have hedges₄ := hw₄.edges.trans hedges₃
  -- a handle that is given out names nothing yet, and earlier ones name something
  have hAH : g₁.nextHandle ≠ g.nextHandle := fun heq => hfreshA nh (by rw [heq, hw₁.self])
  have hH₂ : g₂.node g.nextHandle = .ok nh := by rw [hw₂.other hAH.symm, hw₁.self]
  have hIH : g₂.nextHandle ≠ g.nextHandle := fun heq => hfreshI nh (by rw [heq, hH₂])
  have hIA : g₂.nextHandle ≠ g₁.nextHandle := fun heq => hfreshI na (by rw [heq, hw₂.self])
  have hH₃ : g₃.node g.nextHandle = .ok nh := by rw [hw₃.other hIH.symm, hH₂]
  have hA₃ : g₃.node g₁.nextHandle = .ok na := by rw [hw₃.other hIA.symm, hw₂.self]
  have hOH : g₃.nextHandle ≠ g.nextHandle := fun heq => hfreshO nh (by rw [heq, hH₃])
  have hOA : g₃.nextHandle ≠ g₁.nextHandle := fun heq => hfreshO na (by rw [heq, hA₃])
  have hOI : g₃.nextHandle ≠ g₂.nextHandle := fun heq => hfreshO _ (by rw [heq, hw₃.self])
  have hothers : ∀ x, x ≠ g.nextHandle → x ≠ g₁.nextHandle → x ≠ g₂.nextHandle →
      x ≠ g₃.nextHandle → g₄.node x = g.node x := by
    intro x hxH hxA hxI hxO
    rw [hw₄.other hxO, hw₃.other hxI, hw₂.other hxA, hw₁.other hxH]
  have hhrtf : g₄.Holds g.nextHandle (.hrtfPanner q) hrtfProperties (.spread 2) none none := by
    refine ⟨nh.inputs, nh.outputs, ?_⟩
    rw [hw₄.other hOH.symm, hH₃, ← hkh, ← hph, ← hlh, ← hoh, ← hih]
  refine ⟨⟨g₂.nextHandle, g₃.nextHandle, g.nextHandle, g₁.nextHandle, .stereo⟩, g₁, g₂, g₃, g₄,
    hrun₁, hrun₂, hrun₃, hrun₄, rfl, ?_, hhrtf⟩
  refine ⟨?_, ?_, ?_, ?_, ?_, ⟨q, hhrtf⟩, ?_, ?_, hedges₄, hw₄.sound⟩
  · intro x hx n hn
    rcases mem_inside.mp hx with rfl | rfl | rfl | rfl
    · exact hfreshI n (by rw [hw₂.other hIA, hw₁.other hIH, hn])
    · exact hfreshO n (by rw [hw₃.other hOI, hw₂.other hOA, hw₁.other hOH, hn])
    · exact hfreshH n hn
    · exact hfreshA n (by rw [hw₁.other hAH, hn])
  · simp [inside, hOI.symm, hIH, hIA, hOH, hOA, hAH.symm]
  · intro x hx
    obtain ⟨hxI, hxO, hxH, hxA⟩ := notMem_inside.mp hx
    exact hothers x hxH hxA hxI hxO
  · exact ⟨_, _, by rw [hw₄.other hOI.symm, hw₃.self]; rfl⟩
  · exact ⟨_, _, hw₄.self⟩
  · refine ⟨na.inputs, na.outputs, ?_⟩
    rw [hw₄.other hOA.symm, hA₃, ← hka, ← hpa, ← hla, ← hoa, ← hia]
  · intro e he x hx
    rw [hedges₄] at he
    rcases mem_inside.mp hx with rfl | rfl | rfl | rfl
    · exact (hw₂.sound.wellFormed.ne_of_vacant hvacantI (by rw [hedges₂]; exact he)).2
    · exact (hw₃.sound.wellFormed.ne_of_vacant hvacantO (by rw [hedges₃]; exact he)).2
    · exact (h.wellFormed.ne_of_vacant hvacantH he).2
    · exact (hw₁.sound.wellFormed.ne_of_vacant hvacantA (by rw [hw₁.edges]; exact he)).2

/-- The four nodes are joined. -/
theorem Parts.connect {m : Multipanner} {g' : Graph} (h : Parts g m g') :
    ∃ g₁ g₂, g'.connect m.input 0 m.hrtf 0 = .ok g₁ ∧ g₁.connect m.input 0 m.amplitude 0 = .ok g₂ ∧
      g₂.edges = ⟨m.input.index, 0, m.amplitude.index, 0⟩
        :: ⟨m.input.index, 0, m.hrtf.index, 0⟩ :: g'.edges ∧
      (∀ x, g₂.node x = g'.node x) ∧ g₂.Sound := by
  obtain ⟨_, _, hI⟩ := h.input
  obtain ⟨_, _, _, hH⟩ := h.hrtf
  obtain ⟨_, _, hA⟩ := h.amplitude
  obtain ⟨⟨-, hIH, hIA⟩, -, hHA⟩ := nodup_inside.mp h.nodup
  have hindex : ∀ {x y : NodeId} {n n' : Node}, g'.node x = .ok n → g'.node y = .ok n' → x ≠ y →
      x.index ≠ y.index := fun hx hy hne hi => hne (eq_of_index_eq hx hy hi)
  have hHI := hindex hH hI (Ne.symm hIH)
  have hAI := hindex hA hI (Ne.symm hIA)
  have hHA := hindex hH hA hHA
  obtain ⟨g₁, hc₁, he₁, hv₁, hs₁⟩ := h.sound.connect_plain hI rfl rfl hH rfl rfl
    (o := 0) (k := 0) rfl rfl rfl
    (fun e he => ⟨h.quiet e he _ m.input_mem, h.quiet e he _ m.hrtf_mem⟩) hHI
  have hno : ∀ e ∈ g₁.edges, e.target ≠ m.input.index ∧ e.target ≠ m.amplitude.index := by
    intro e he
    rw [he₁] at he
    rcases List.mem_cons.mp he with rfl | he
    · exact ⟨hHI, hHA⟩
    · exact ⟨h.quiet e he _ m.input_mem, h.quiet e he _ m.amplitude_mem⟩
  obtain ⟨g₂, hc₂, he₂, hv₂, hs₂⟩ := hs₁.connect_plain (by rw [hv₁, hI]) rfl rfl
    (by rw [hv₁, hA]) rfl rfl (o := 0) (k := 0) rfl rfl rfl hno hAI
  exact ⟨g₁, g₂, hc₁, hc₂, by rw [he₂, he₁], fun x => (hv₂ x).trans (hv₁ x), hs₂⟩

/-- **A multipanner is made of five new nodes**, one of them a new panner for headphones. -/
theorem run_assemble_of_new (h : g.Sound) {q : HrtfPanner} (hq : HrtfPanner.new data = .ok q) :
    ∃ id m g', (assemble data).run g = (.ok id, g') ∧ Assembled g id m g' ∧
      g'.Holds m.hrtf (.hrtfPanner q) hrtfProperties (.spread 2) (some id) none := by
  obtain ⟨m, g₁, g₂, g₃, g₄, hrun₁, hrun₂, hrun₃, hrun₄, hstrategy, hp, hhrtf⟩ := run_parts h hq
  obtain ⟨g₅, g₆, hc₅, hc₆, hedges, hview, hsound⟩ := hp.connect
  obtain ⟨g₇, hrun₇, hw⟩ := run_associate hsound (.multipanner m) Layout.inBounds_empty
  have hfresh := hsound.arena.node_nextHandle
  have hlive : ∀ x ∈ m.inside, ∃ n, g₆.node x = .ok n ∧ n.owner = none ∧ n.interior = none := by
    intro x hx
    rw [hview]
    rcases mem_inside.mp hx with rfl | rfl | rfl | rfl
    · obtain ⟨_, _, hn⟩ := hp.input
      exact ⟨_, hn, rfl, rfl⟩
    · obtain ⟨_, _, hn⟩ := hp.output
      exact ⟨_, hn, rfl, rfl⟩
    · obtain ⟨_, _, _, hn⟩ := hp.hrtf
      exact ⟨_, hn, rfl, rfl⟩
    · obtain ⟨_, _, hn⟩ := hp.amplitude
      exact ⟨_, hn, rfl, rfl⟩
  have hnew : g₆.nextHandle ∉ m.inside := by
    intro hx
    obtain ⟨n, hn, -⟩ := hlive _ hx
    exact hfresh n hn
  have hin : ∀ x ∈ m.inside, ∃ n, g₇.node x = .ok n ∧ n.owner = none ∧ n.interior = none := by
    intro x hx
    rw [hw.other (ne_of_mem_of_not_mem hx hnew)]
    exact hlive x hx
  obtain ⟨g₈, hmake, hedges₈, hsound₈, hview₈⟩ := hw.sound.makeSubgraph
    ⟨m.input, m.output⟩ hin hw.self rfl hnew m.input_mem m.output_mem
  have hself : g₈.node g₆.nextHandle = .ok { arrange .empty (blank (.multipanner m)) with
      interior := some ⟨m.input, m.output⟩ } := by rw [hview₈, if_pos rfl]
  obtain ⟨g₉, hrun₉, hw₉⟩ := run_addObservers hsound₈ hself observers
    (fun r hr => by
      have hall : ∀ r ∈ observers, (properties.get? r.2.1).isSome = true := by
        simp only [observers, forwardedToPanners, forwardedToOutput, List.map, List.cons_append,
          List.nil_append, List.forall_mem_cons]
        exact ⟨rfl, rfl, rfl, rfl, rfl, rfl, rfl, rfl, fun _ hmem => absurd hmem List.not_mem_nil⟩
      exact hall r hr)
  -- what the handles inside name at the end
  have hmember : ∀ {x k ps l}, x ∈ m.inside → g₄.Holds x k ps l none none →
      g₉.Holds x k ps l (some g₆.nextHandle) none := by
    rintro x k ps l hx ⟨inputs, outputs, hn⟩
    have hne := ne_of_mem_of_not_mem hx hnew
    refine ⟨inputs, outputs, ?_⟩
    rw [hw₉.other hne, hview₈, if_neg hne, if_pos hx, hw.other hne, hview, hn]
    rfl
  refine ⟨g₆.nextHandle, m, g₉, ?_, ⟨?_, List.nodup_cons.mpr ⟨hnew, hp.nodup⟩, ?_, hstrategy,
    ⟨_, _, hw₉.self⟩, hmember m.input_mem hp.input, hmember m.output_mem hp.output,
    hp.hrtf.imp fun _ => hmember m.hrtf_mem,
    hmember m.amplitude_mem hp.amplitude, ?_, hw₉.sound⟩, hmember m.hrtf_mem hhrtf⟩
  · have hm : (⟨m.input, m.output, m.hrtf, m.amplitude, .stereo⟩ : Multipanner) = m := by
      rw [← hstrategy]
    have hc₅' : (GraphM.change fun g => g.connect m.input 0 m.hrtf 0).run g₄ = (.ok (), g₅) := by
      rw [run_change, hc₅]
    have hc₆' : (GraphM.change fun g => g.connect m.input 0 m.amplitude 0).run g₅
        = (.ok (), g₆) := by
      rw [run_change, hc₆]
    have hmake' : (GraphM.change fun g => g.makeSubgraph g₆.nextHandle ⟨m.input, m.output⟩
        [m.input, m.output, m.hrtf, m.amplitude]).run g₇ = (.ok (), g₈) := by
      rw [run_change, show [m.input, m.output, m.hrtf, m.amplitude] = m.inside from rfl, hmake]
    rw [assemble, run_bind_ok hrun₁, run_bind_ok hrun₂, run_bind_ok hrun₃, run_bind_ok hrun₄,
      run_bind_ok hc₅', run_bind_ok hc₆', hm, run_bind_ok hrun₇, run_bind_ok hmake',
      run_bind_ok hrun₉]
    rfl
  · refine List.forall_mem_cons.mpr ⟨fun n hn => hfresh n ?_, hp.fresh⟩
    rw [hview, hp.others _ hnew, hn]
  · intro x hx
    obtain ⟨hne, hx⟩ := not_or.mp (mt List.mem_cons.mpr hx)
    rw [hw₉.other hne, hview₈, if_neg hne, if_neg hx, hw.other hne, hview, hp.others x hx]
  · rw [hw₉.edges, hedges₈, hw.edges, hedges, hp.edges]

theorem run_assemble (h : g.Sound) {q : HrtfPanner} (hq : HrtfPanner.new data = .ok q) :
    ∃ id m g', (assemble data).run g = (.ok id, g') ∧ Assembled g id m g' := by
  obtain ⟨id, m, g', hrun, hassembled, -⟩ := run_assemble_of_new h hq
  exact ⟨id, m, g', hrun, hassembled⟩

/-- The nodes inside a new multipanner are its own. -/
theorem Assembled.member {id : NodeId} {m : Multipanner} {g' : Graph} (h : Assembled g id m g')
    {x : NodeId} (hx : x ∈ m.inside) :
    ∃ n, g'.node x = .ok n ∧ n.owner = some id ∧ ∀ k, n.kind ≠ .multipanner k := by
  rcases mem_inside.mp hx with rfl | rfl | rfl | rfl
  · obtain ⟨_, _, hn⟩ := h.input
    exact ⟨_, hn, rfl, fun k hk => by cases hk⟩
  · obtain ⟨_, _, hn⟩ := h.output
    exact ⟨_, hn, rfl, fun k hk => by cases hk⟩
  · obtain ⟨_, _, _, hn⟩ := h.hrtf
    exact ⟨_, hn, rfl, fun k hk => by cases hk⟩
  · obtain ⟨_, _, hn⟩ := h.amplitude
    exact ⟨_, hn, rfl, fun k hk => by cases hk⟩

/-- The slots of new nodes were not in use. -/
theorem Assembled.index_ne {id : NodeId} {m : Multipanner} {g' : Graph} (h : Assembled g id m g')
    {x y : NodeId} {n : Node} (hx : g.node x = .ok n) (hy : y ∈ m.inside) : x.index ≠ y.index := by
  intro hindex
  have hold : x ∉ id :: m.inside := fun hmem => h.fresh x hmem n hx
  obtain ⟨ny, hny, -⟩ := h.member hy
  have hxy : x = y := eq_of_index_eq (by rw [h.others x hold, hx]) hny hindex
  exact hold (hxy ▸ List.mem_cons_of_mem id hy)

/-- A multipanner is the one that was made, or was there before. -/
theorem Assembled.panner_cases {id : NodeId} {m : Multipanner} {g' : Graph}
    (h : Assembled g id m g') {x : NodeId} {n : Node} {k : Multipanner} (hx : g'.node x = .ok n)
    (hk : n.kind = .multipanner k) : (x = id ∧ k = m) ∨ g.node x = .ok n := by
  by_cases hmem : x ∈ id :: m.inside
  · rcases List.mem_cons.mp hmem with rfl | hin
    · obtain ⟨_, _, hM⟩ := h.panner
      cases hM.symm.trans hx
      cases hk
      exact .inl ⟨rfl, rfl⟩
    · obtain ⟨n', hn', -, hno⟩ := h.member hin
      cases hn'.symm.trans hx
      exact absurd hk (hno k)
  · exact .inr (by rw [← h.others x hmem, hx])

/-- A dataset without responses makes no multipanner. -/
theorem run_assemble_of_error {a : Abort} (hq : HrtfPanner.new data = .error a) :
    (assemble data).run g = (.error (.aborted a), g) := by
  rw [assemble]
  exact run_bind_error (run_createHrtfPanner_of_error hq)

/-- **Making a multipanner keeps a graph sound.** -/
theorem sound_assemble (h : g.Sound) (data : Dataset) : ((assemble data).run g).2.Sound := by
  cases hq : HrtfPanner.new data with
  | error a =>
    rw [run_assemble_of_error hq]
    exact h
  | ok q =>
    obtain ⟨id, m, g', hrun, hassembled⟩ := run_assemble h hq
    rw [hrun]
    exact hassembled.sound

end Multipanner

end SpatialAudio
