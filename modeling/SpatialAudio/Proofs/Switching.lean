import SpatialAudio.Proofs.Setting

/-!
# Proofs/Switching — rewiring a multipanner succeeds

A transition takes both panners off the output stage, sets up the one that becomes active, gives the
output stage its width and attaches it.  Nothing of this fails (`Inside.run_transition`) as long as
the nodes inside are as they were made, the connections that leave the output stage accept the new
width, and nothing leads from the output stage back to the input stage.
-/

namespace SpatialAudio

open SpatialAudio.Graph

/-! ## Standard maps -/

/-- Setting stores the value where nobody observes. -/
def Plain (set : Setter) : Prop :=
  ∀ {s : Session} {id : NodeId} {n : Node} {p : PropertyId} {x : Property} {v : PropertyValue},
    s.graph.node id = .ok n → n.properties.keys.Nodup → n.properties.get? p = some x →
    x.before = [] → x.after = [] → x.validate p v = .ok () →
    (set id p v).run s = (.ok (), { s with graph := s.graph.modifyProperty id p (·.store v) })

theorem plain_setWith (run : Event → Observer → Action Unit) : Plain (setWith run) :=
  fun hn hnd hx hbefore hafter hv => run_setWith_plain hn hnd hx hbefore hafter hv

theorem plain_set : Plain Session.set := by
  intro s id n p x v hn hnd hx hbefore hafter hv
  rw [Session.set, run_bind_ok (run_get s)]
  exact run_setWith_plain hn hnd hx hbefore hafter hv

/-- Setting ends the session. -/
def Aborts (set : Setter) : Prop :=
  ∀ id p v s, ∃ a, (set id p v).run s = (.error (.aborted a), s)

theorem run_expect {s : Session} {id : NodeId} {n : Node} {type : NodeType}
    (hn : s.graph.node id = .ok n) (hk : n.kind.type = type) :
    (Action.read fun g => do (← g.node id).kind.expect type).run s = (.ok (), s) := by
  rw [Action.read, run_onGraph, run_read, hn]
  change ((n.kind.expect type).mapError Failure.refused, s) = _
  rw [NodeKind.expect, if_pos hk]
  rfl

/-- The properties of an amplitude panner under a standard map. -/
def retuned (ps : Properties) (angles : List Float32) : Properties :=
  ((ps.modify .channelMap (·.store (.floatArray angles))).modify .skipCenter
    (·.store (.int 1))).modify .skipLfe (·.store (.int 1))

theorem frame_retuned (ps : Properties) (angles : List Float32) :
    (retuned ps angles).frame = ps.frame := by
  rw [retuned, Properties.frame_store, Properties.frame_store, Properties.frame_store]

/-- Every property of an amplitude panner is there, and nobody observes it. -/
theorem exists_of_amplitude {ps : Properties} (h : ps.frame = AmplitudePanner.properties.frame)
    {p : PropertyId} {y : Property} (hy : AmplitudePanner.properties.get? p = some y)
    (hbefore : y.before = []) (hafter : y.after = []) :
    ∃ x, ps.get? p = some x ∧ x.range = y.range ∧ x.before = [] ∧ x.after = [] := by
  obtain ⟨x, hx, hframe⟩ := Properties.exists_of_frame h hy
  exact ⟨x, hx, Property.range_of_frame hframe, (Property.observers_of_frame hframe .before).trans
    hbefore, (Property.observers_of_frame hframe .after).trans hafter⟩

theorem keys_amplitude {ps : Properties} (h : ps.frame = AmplitudePanner.properties.frame) :
    ps.keys.Nodup := by
  rw [Properties.keys_eq_of_frame h]
  decide

/-- Standard maps are valid. -/
theorem validate_standard {channels : Nat} {angles : List Float32}
    (h : ChannelMap.standard? channels = some angles) {x : Property}
    (hx : x.range = .floatArray (-360) 360 1 14) :
    x.validate .channelMap (.floatArray angles) = .ok () := by
  have hcheck : ∀ {l : List Float32}, (1 ≤ l.length ∧ l.length ≤ 14) →
      (∀ a ∈ l, (-360 : Float32) ≤ a ∧ a ≤ 360) →
      x.validate .channelMap (.floatArray l) = .ok () := by
    intro l hlen hl
    have hno : ¬ (l.length < 1 ∨ 14 < l.length) := by omega
    unfold Property.validate
    simp only [hx, if_neg hno]
    exact forM_eq_ok.mpr fun a ha => by rw [Property.checkFloat, if_pos (hl a ha)]
  unfold ChannelMap.standard? at h
  split at h
  · cases h
    exact hcheck (by decide) (by decide +kernel)
  · cases h
    exact hcheck (by decide) (by decide +kernel)
  · cases h
    exact hcheck (by decide) (by decide +kernel)
  · cases h

/-- A standard map has as many outputs as it was asked for. -/
theorem mapLayout_retuned {channels : Nat} {angles : List Float32}
    (h : ChannelMap.standard? channels = some angles) {ps : Properties}
    (hframe : ps.frame = AmplitudePanner.properties.frame) :
    mapLayout (retuned ps angles) = .spread channels := by
  obtain ⟨x, hx, -⟩ := exists_of_amplitude hframe (p := .channelMap) rfl rfl rfl
  obtain ⟨y, hy, -⟩ := exists_of_amplitude hframe (p := .skipCenter) rfl rfl rfl
  obtain ⟨z, hz, -⟩ := exists_of_amplitude hframe (p := .skipLfe) rfl rfl rfl
  have hmap : (retuned ps angles).floatArray .channelMap = angles := by
    rw [Properties.floatArray, retuned, Properties.get?_modify_of_ne _ (by decide),
      Properties.get?_modify_of_ne _ (by decide), Properties.get?_store hx]
    rfl
  have hcenter : (retuned ps angles).flag .skipCenter = true := by
    rw [Properties.flag, Properties.int, retuned, Properties.get?_modify_of_ne _ (by decide),
      Properties.get?_modify, if_pos rfl, Properties.get?_modify_of_ne _ (by decide), hy]
    rfl
  have hlfe : (retuned ps angles).flag .skipLfe = true := by
    rw [Properties.flag, Properties.int, retuned, Properties.get?_modify, if_pos rfl,
      Properties.get?_modify_of_ne _ (by decide), Properties.get?_modify_of_ne _ (by decide), hz]
    rfl
  rw [mapLayout, AmplitudePanner.describedMap, hmap, hcenter, hlfe]
  unfold ChannelMap.standard? at h
  split at h <;> cases h <;> rfl

/-- **A standard map is set on an amplitude panner that nobody observes.** -/
theorem run_configureStandardMap {set : Setter} (hset : Plain set) {s : Session} {id : NodeId}
    {n : Node} (hs : s.graph.Sound) (hn : s.graph.node id = .ok n)
    (hk : n.kind.type = .amplitudePanner)
    (hframe : n.properties.frame = AmplitudePanner.properties.frame) {channels : Nat}
    {angles : List Float32} (hmap : ChannelMap.standard? channels = some angles) :
    ∃ g', (configureStandardMap set id channels).run s = (.ok (), { s with graph := g' }) ∧
      s.graph.Wrote id { n with properties := retuned n.properties angles } g' := by
  obtain ⟨x, hx, hrange, hb, ha⟩ := exists_of_amplitude hframe (p := .channelMap) rfl rfl rfl
  have hw₁ := hs.wrote_modifyProperty hn .channelMap (·.store (.floatArray angles))
  have hframe₁ := (Properties.frame_store n.properties .channelMap (.floatArray angles)).trans hframe
  obtain ⟨y, hy, hrange', hb', ha'⟩ := exists_of_amplitude hframe₁ (p := .skipCenter) rfl rfl rfl
  have hw₂ := hw₁.sound.wrote_modifyProperty hw₁.self .skipCenter (·.store (.int 1))
  have hframe₂ := (Properties.frame_store _ .skipCenter (.int 1)).trans hframe₁
  obtain ⟨z, hz, hrange'', hb'', ha''⟩ := exists_of_amplitude hframe₂ (p := .skipLfe) rfl rfl rfl
  have hw₃ := hw₂.sound.wrote_modifyProperty hw₂.self .skipLfe (·.store (.int 1))
  have hflag : ∀ {w : Property} {q : PropertyId}, w.range = .int 0 1 →
      w.validate q (.int 1) = .ok () := by
    intro w q hw
    unfold Property.validate
    rw [hw]
    rfl
  -- the three stores, one after the other
  generalize hg₁ : s.graph.modifyProperty id .channelMap (·.store (.floatArray angles)) = g₁
    at hw₁ hw₂ hw₃
  generalize hg₂ : g₁.modifyProperty id .skipCenter (·.store (.int 1)) = g₂ at hw₂ hw₃
  have hrun₁ := hset hn (keys_amplitude hframe) hx hb ha (validate_standard hmap hrange)
  have hrun₂ := hset (s := { s with graph := g₁ }) hw₁.self (keys_amplitude hframe₁) hy hb' ha'
    (hflag hrange')
  have hrun₃ := hset (s := { s with graph := g₂ }) hw₂.self (keys_amplitude hframe₂) hz hb'' ha''
    (hflag hrange'')
  rw [hg₁] at hrun₁
  rw [hg₂] at hrun₂
  refine ⟨_, ?_, (hw₁.trans hw₂).trans hw₃⟩
  rw [configureStandardMap, hmap]
  exact (run_bind_ok (run_expect hn hk)).trans ((run_bind_ok hrun₁).trans ((run_bind_ok hrun₂).trans hrun₃))

theorem NodeKind.type_layoutApplied (k : NodeKind) : k.layoutApplied.type = k.type := by
  cases k <;> rfl

/-! ## Detaching and attaching -/

namespace Graph

/-- A plain node all of whose connections leave its first slot is detached. -/
theorem Sound.detach {g : Graph} (h : g.Sound) {a : NodeId} {n : Node} (hn : g.node a = .ok n)
    (hint : n.interior = none) {r : ChannelRange} (hr : n.layout.outputSlots[0]? = some r)
    (hslot : ∀ e ∈ g.edges, e.source = a.index → e.outputSlot = 0) :
    ∃ g', g.disconnectInterior a 0 = .ok g' ∧ g'.Sound ∧ (∀ x, g'.node x = g.node x) ∧
      ∀ e, e ∈ g'.edges ↔ e ∈ g.edges ∧ e.source ≠ a.index := by
  have hside := h.nested.sourceSide hn
  rw [Node.sourceEnd_of_plain hint] at hside
  have hrange : (g.layoutAt a.index).outputSlots[0]? = some r := by
    rw [layoutAt_of_nodeAt? (nodeAt?_of_node hn)]
    exact hr
  have hgone : ∀ e ∈ g.edges, ¬ (e.source = a.index ∧ e.outputSlot = 0) ↔ e.source ≠ a.index :=
    fun e he => ⟨fun hno hs => hno ⟨hs, hslot e he hs⟩, fun hs hgone => hs hgone.1⟩
  have hdisconnect := disconnectAt_eq_ok.mpr ⟨_, r, hside, hrange, rfl⟩
  refine ⟨_, disconnectInterior_eq_ok.mpr ⟨⟨n, hn⟩, hdisconnect⟩, h.disconnectAt hdisconnect, ?_, ?_⟩
  · intro x
    split
    · rw [node_reschedule]
      rfl
    · rfl
  · intro e
    split
    · rw [edges_reschedule, List.mem_filter]
      exact and_congr_right fun he => by rw [decide_eq_true_eq, hgone e he]
    · next hany =>
      exact ⟨fun he => ⟨he, fun hs => hany ⟨e, he, hs, hslot e he hs⟩⟩, And.left⟩

/-- A plain node with the layout of a panner is attached to a plain node of its width that it is not
reached from. -/
theorem Sound.attach {g : Graph} (h : g.Sound) {a b : NodeId} {n m : Node} (hn : g.node a = .ok n)
    (hint : n.interior = none) (hm : g.node b = .ok m) (hint' : m.interior = none) {c : Nat}
    (hl : n.layout = .spread c) (hl' : m.layout = .symmetric c)
    (hmem : ⟨a.index, 0, b.index, 0⟩ ∉ g.edges) (hno : ¬ Leads g.edges b.index a.index) :
    ∃ g', g.connectInterior a 0 b 0 = .ok g' ∧ g'.Sound ∧ (∀ x, g'.node x = g.node x) ∧
      g'.edges = ⟨a.index, 0, b.index, 0⟩ :: g.edges := by
  have hs := h.nested.sourceSide hn
  have ht := h.nested.targetSide hm
  rw [Node.sourceEnd_of_plain hint] at hs
  rw [Node.targetEnd_of_plain hint'] at ht
  have hjoin : g.Joins ⟨a.index, 0, b.index, 0⟩ := by
    refine ⟨⟨0, c⟩, ⟨0, c⟩, ?_, ?_, rfl⟩
    · rw [layoutAt_of_nodeAt? (nodeAt?_of_node hn), hl]
      rfl
    · rw [layoutAt_of_nodeAt? (nodeAt?_of_node hm), hl']
      rfl
  have hconnect := connectAt_eq_ok.mpr ⟨_, _, hs, ht, hjoin, hno, rfl⟩
  rw [if_neg hmem] at hconnect
  refine ⟨_, connectInterior_eq_ok.mpr ⟨⟨n, hn⟩, ⟨m, hm⟩, hconnect⟩, h.connectAt hconnect, ?_,
    edges_reschedule _⟩
  intro x
  rw [node_reschedule]
  rfl

end Graph

namespace Multipanner

/-- The panner that a strategy selects. -/
def active (m : Multipanner) : NodeId :=
  match m.strategy with
  | .hrtf => m.hrtf
  | _ => m.amplitude

/-- The connection of the input stage to the HRTF panner. -/
def hrtfWire (m : Multipanner) : Edge := ⟨m.input.index, 0, m.hrtf.index, 0⟩

/-- The connection of the input stage to the amplitude panner. -/
def amplitudeWire (m : Multipanner) : Edge := ⟨m.input.index, 0, m.amplitude.index, 0⟩

/-- The connection of the active panner to the output stage. -/
def feed (m : Multipanner) : Edge := ⟨m.active.index, 0, m.output.index, 0⟩

/-- The nodes inside a multipanner are as they were made, up to values and the width of the output
stage. -/
structure Inside (M : NodeId) (m : Multipanner) (g : Graph) (nI nO nH nA : Node) : Prop where
  sound : g.Sound
  nodup : (M :: m.inside).Nodup
  input : g.node m.input = .ok nI
  output : g.node m.output = .ok nO
  hrtf : g.node m.hrtf = .ok nH
  amplitude : g.node m.amplitude = .ok nA
  owned : ∀ n ∈ [nI, nO, nH, nA], n.owner = some M
  inputType : nI.kind.type = .gain
  outputType : nO.kind.type = .gain
  hrtfType : nH.kind.type = .hrtfPanner
  amplitudeType : nA.kind.type = .amplitudePanner
  inputLayout : nI.layout = .symmetric 1
  hrtfLayout : nH.layout = .spread 2
  amplitudeLayout : nA.layout = mapLayout nA.properties
  outputFrame : nO.properties.frame = Properties.standard.frame
  hrtfFrame : nH.properties.frame = hrtfProperties.frame
  amplitudeFrame : nA.properties.frame = AmplitudePanner.properties.frame

/-- The panners are fed by the input stage alone and feed nothing but the output stage, which
nothing else feeds. -/
structure Loose (m : Multipanner) (edges : List Edge) : Prop where
  hrtfWire : m.hrtfWire ∈ edges
  amplitudeWire : m.amplitudeWire ∈ edges
  toHrtf : ∀ e ∈ edges, e.target = m.hrtf.index → e = m.hrtfWire
  toAmplitude : ∀ e ∈ edges, e.target = m.amplitude.index → e = m.amplitudeWire
  toOutput : ∀ e ∈ edges, e.target = m.output.index →
    e.source = m.hrtf.index ∨ e.source = m.amplitude.index
  fromPanner : ∀ e ∈ edges, e.source = m.hrtf.index ∨ e.source = m.amplitude.index →
    e.outputSlot = 0 ∧ e.target = m.output.index ∧ e.inputSlot = 0

/-- Besides, the active panner feeds the output stage, and only it does. -/
structure Wired (m : Multipanner) (edges : List Edge) : Prop extends Loose m edges where
  feed : m.feed ∈ edges
  onlyFeed : ∀ e ∈ edges, e.source = m.hrtf.index ∨ e.source = m.amplitude.index → e = m.feed

variable {M : NodeId} {m : Multipanner} {g : Graph} {nI nO nH nA : Node}

/-- The nodes inside are in different slots. -/
theorem Inside.nodup_index (h : Inside M m g nI nO nH nA) : (m.inside.map NodeId.index).Nodup := by
  have hlive : ∀ x ∈ m.inside, ∃ n, g.node x = .ok n := by
    intro x hx
    rcases mem_inside.mp hx with rfl | rfl | rfl | rfl
    · exact ⟨nI, h.input⟩
    · exact ⟨nO, h.output⟩
    · exact ⟨nH, h.hrtf⟩
    · exact ⟨nA, h.amplitude⟩
  refine List.Nodup.map_on (fun x hx y hy hxy => ?_) (List.nodup_cons.mp h.nodup).2
  obtain ⟨n, hn⟩ := hlive x hx
  obtain ⟨n', hn'⟩ := hlive y hy
  exact eq_of_index_eq hn hn' hxy

/-- Private nodes are no subgraphs. -/
theorem Inside.interior (h : Inside M m g nI nO nH nA) :
    nI.interior = none ∧ nO.interior = none ∧ nH.interior = none ∧ nA.interior = none :=
  ⟨(h.sound.nested.owned _ _ _ h.input (h.owned _ (by simp))).1,
    (h.sound.nested.owned _ _ _ h.output (h.owned _ (by simp))).1,
    (h.sound.nested.owned _ _ _ h.hrtf (h.owned _ (by simp))).1,
    (h.sound.nested.owned _ _ _ h.amplitude (h.owned _ (by simp))).1⟩

/-- Both panners are taken off the output stage. -/
theorem Inside.detach (h : Inside M m g nI nO nH nA) (hl : Loose m g.edges) :
    ∃ g₁ g₂, g.disconnectInterior m.hrtf 0 = .ok g₁ ∧ g₁.disconnectInterior m.amplitude 0 = .ok g₂ ∧
      g₂.Sound ∧ (∀ x, g₂.node x = g.node x) ∧
      ∀ e, e ∈ g₂.edges ↔ e ∈ g.edges ∧ e.source ≠ m.hrtf.index ∧ e.source ≠ m.amplitude.index := by
  obtain ⟨-, -, hH, hA⟩ := h.interior
  obtain ⟨g₁, hd₁, hs₁, hv₁, he₁⟩ := h.sound.detach h.hrtf hH (r := ⟨0, 2⟩)
    (by rw [h.hrtfLayout]; rfl) fun e he hs => (hl.fromPanner e he (.inl hs)).1
  obtain ⟨g₂, hd₂, hs₂, hv₂, he₂⟩ := hs₁.detach (by rw [hv₁, h.amplitude]) hA
    (by rw [h.amplitudeLayout]; rfl)
    fun e he hs => (hl.fromPanner e ((he₁ e).mp he).1 (.inr hs)).1
  refine ⟨g₁, g₂, hd₁, hd₂, hs₂, fun x => (hv₂ x).trans (hv₁ x), fun e => ?_⟩
  rw [he₂, he₁, and_assoc]

/-- The last part of a transition: the output stage gets the width of the active panner, which is
then attached to it. -/
def conclude (id : NodeId) (m : Multipanner) (strategy : Strategy) (active : NodeId) :
    Action Unit := do
  let width ← .read fun g => g.outputCount active
  .onGraph (GraphM.update fun g => g.applyLayout m.output (.symmetric width))
  .change fun g => g.connectInterior active 0 m.output 0
  .change fun g => do
    let m ← find g id
    return g.modifyAt id.index fun n => { n with kind := .multipanner { m with strategy } }

/-- **A panner of an admitted width is attached.** -/
theorem run_conclude {s : Session} (hs : s.graph.Sound) {nM na : Node} {act : NodeId} {c : Nat}
    {strategy : Strategy} (hM : s.graph.node M = .ok nM) (hk : nM.kind = .multipanner m)
    (hO : s.graph.node m.output = .ok nO) (hint : nO.interior = none) {w : Nat}
    (hwO : nO.layout = .symmetric w)
    (ha : s.graph.node act = .ok na) (hint' : na.interior = none) (hl : na.layout = .spread c)
    (hc : c ≤ maxChannels) (hMO : M ≠ m.output) (hact : act ≠ m.output)
    (hin : ∀ e ∈ s.graph.edges, e.target ≠ m.output.index)
    (hout : ∀ e ∈ s.graph.edges, e.source = m.output.index →
      ∃ r, (s.graph.layoutAt e.target).inputSlots[e.inputSlot]? = some r ∧ r.count = c)
    (hno : ¬ Leads s.graph.edges m.output.index act.index) :
    ∃ g', (conclude M m strategy act).run s = (.ok (), { s with graph := g' }) ∧ g'.Sound ∧
      g'.edges = ⟨act.index, 0, m.output.index, 0⟩ :: s.graph.edges ∧
      ∀ x, g'.node x = if x = M then .ok { nM with kind := .multipanner { m with strategy } }
        else if x = m.output then .ok (rearrange (.symmetric c) nO) else s.graph.node x := by
  have hwidth : s.graph.outputCount act = .ok c := by
    have hindex : s.graph.index act = .ok act.index := index_eq_ok.mpr ⟨⟨na, ha⟩, rfl⟩
    have hside := hs.nested.sourceSide ha
    rw [Node.sourceEnd_of_plain hint'] at hside
    rw [outputCount, hindex]
    change (do return (s.graph.layoutAt (← s.graph.sourceSide act.index)).outputs) = _
    rw [hside]
    change Except.ok (s.graph.layoutAt act.index).outputs = _
    rw [layoutAt_of_nodeAt? (nodeAt?_of_node ha), hl]
    rfl
  have hcheck : s.graph.checkEdges m.output.index (.symmetric c) = .ok () := by
    refine checkEdges_eq_ok.mpr ⟨fun e he => ?_, fun e he => ?_⟩
    · obtain ⟨he, ht⟩ := List.mem_filter.mp he
      exact absurd (of_decide_eq_true ht) (hin e he)
    · obtain ⟨he, hsrc⟩ := List.mem_filter.mp he
      obtain ⟨r, hr, hcount⟩ := hout e he (of_decide_eq_true hsrc)
      -- the output stage has one slot only
      obtain ⟨output, -, ho, -⟩ := hs.wellFormed.joins e he
      rw [of_decide_eq_true hsrc, layoutAt_of_nodeAt? (nodeAt?_of_node hO), hwO] at ho
      have hslot : e.outputSlot = 0 := by
        have hlt : e.outputSlot < [(⟨0, w⟩ : ChannelRange)].length :=
          (List.getElem?_eq_some_iff.mp ho).1
        simpa using hlt
      exact ⟨r, ⟨0, c⟩, hr, by rw [hslot]; rfl, hcount.symm⟩
  obtain ⟨g₁, happly, hw₁⟩ := hs.wrote_applyLayout hO (Layout.inBounds_symmetric.mpr hc) hcheck
  have hrun₁ : (Action.onGraph (GraphM.update fun g => g.applyLayout m.output (.symmetric c))).run s
      = (.ok (), { s with graph := g₁ }) := by
    rw [run_onGraph, run_update, happly]
  have hmem : (⟨act.index, 0, m.output.index, 0⟩ : Edge) ∉ g₁.edges := by
    rw [hw₁.edges]
    exact fun he => hin _ he rfl
  obtain ⟨g₂, hconnect, hs₂, hv₂, he₂⟩ := hw₁.sound.attach (by rw [hw₁.other hact, ha]) hint'
    hw₁.self (by rw [rearrange_interior, hint]) hl (rearrange_layout _ _) hmem
    (by rw [hw₁.edges]; exact hno)
  have hrun₂ : (Action.change fun g => g.connectInterior act 0 m.output 0).run
      { s with graph := g₁ } = (.ok (), { s with graph := g₂ }) := run_change_ok hconnect
  have hM₂ : g₂.node M = .ok nM := by rw [hv₂, hw₁.other hMO, hM]
  have hw₃ := hs₂.wrote (f := fun n => { n with kind := .multipanner { m with strategy } }) hM₂
    ⟨⟨rfl, rfl, rfl⟩, rfl, rfl⟩
  have hrun₃ : (Action.change fun g => do
      let m ← find g M
      return g.modifyAt M.index fun n => { n with kind := .multipanner { m with strategy } }).run
        { s with graph := g₂ } = (.ok (), { s with graph := g₂.modifyAt M.index fun n =>
          { n with kind := .multipanner { m with strategy } } }) := by
    refine run_change_ok ?_
    simp only [find_eq_ok.mpr ⟨nM, hM₂, hk⟩]
    rfl
  refine ⟨_, ?_, hw₃.sound, by rw [hw₃.edges, he₂, hw₁.edges], fun x => ?_⟩
  · rw [conclude, run_bind_ok (run_read_ok hwidth), run_bind_ok hrun₁, run_bind_ok hrun₂, hrun₃]
  · rw [hw₃.node, hv₂, hw₁.node]

/-- The panners are off the output stage, and the amplitude panner is as a strategy needs it. -/
structure Ready (M : NodeId) (m : Multipanner) (g : Graph) (nA : Node) (strategy : Strategy)
    (g' : Graph) (nA' : Node) : Prop where
  sound : g'.Sound
  edges : ∀ e, e ∈ g'.edges ↔
    e ∈ g.edges ∧ e.source ≠ m.hrtf.index ∧ e.source ≠ m.amplitude.index
  node : ∀ x, g'.node x = if x = m.amplitude then .ok nA' else g.node x
  owner : nA'.owner = some M
  type : nA'.kind.type = .amplitudePanner
  layout : nA'.layout = mapLayout nA'.properties
  frame : nA'.properties.frame = AmplitudePanner.properties.frame
  values : ∀ p ∈ forwardedToPanners, nA'.properties.get? p = nA.properties.get? p
  width : strategy = .hrtf ∨ nA'.layout = .spread strategy.channels
  current : strategy = .hrtf ∨ Current nA'

/-- What a transition leaves behind. -/
structure Switched (M : NodeId) (m : Multipanner) (g : Graph) (nM nI nO nH nA : Node)
    (strategy : Strategy) (g' : Graph) (nO' nA' : Node) : Prop where
  inside : Inside M { m with strategy } g' nI nO' nH nA'
  wired : Wired { m with strategy } g'.edges
  panner : g'.node M = .ok { nM with kind := .multipanner { m with strategy } }
  output : nO' = rearrange (.symmetric strategy.channels) nO
  amplitude : ∀ p ∈ forwardedToPanners, nA'.properties.get? p = nA.properties.get? p
  current : strategy = .hrtf ∨ Current nA'
  others : ∀ x, x ≠ M → x ≠ m.output → x ≠ m.amplitude → g'.node x = g.node x

/-- Nothing leads from the output stage to a panner, as long as nothing leads to the input stage. -/
theorem not_leads_panner {edges : List Edge} {wire : Edge} {o i p : Nat}
    (hwire : ∀ e ∈ edges, e.target = p → e = wire) (hsource : wire.source = i) (hop : o ≠ p)
    (hno : ¬ Leads edges o i) : ¬ Leads edges o p := by
  intro hl
  rcases Relation.ReflTransGen.cases_tail hl with heq | ⟨k, hk, e, he, rfl, ht⟩
  · exact hop heq.symm
  · rw [hwire e he ht, hsource] at hk
    exact hno hk

/-- The active panner is one of the two. -/
theorem active_eq (m : Multipanner) : m.active = m.hrtf ∨ m.active = m.amplitude := by
  rw [active]
  split
  · exact .inl rfl
  · exact .inr rfl

/-- The panner of a strategy takes the place of whichever fed the output stage. -/
theorem Loose.switch {edges edges' : List Edge} (h : Loose m edges)
    (hnd : (m.inside.map NodeId.index).Nodup) (strategy : Strategy)
    (hedges : ∀ e, e ∈ edges' ↔
      e ∈ edges ∧ e.source ≠ m.hrtf.index ∧ e.source ≠ m.amplitude.index) :
    Wired { m with strategy } (feed { m with strategy } :: edges') := by
  obtain ⟨⟨hIO, hIH, hIA⟩, ⟨hOH, hOA⟩, -⟩ := nodup_map_inside.mp hnd
  have hold : ∀ {e}, e ∈ edges' → e ∈ edges := fun he => ((hedges _).mp he).1
  have hno : ∀ {e}, e ∈ edges' → ¬ (e.source = m.hrtf.index ∨ e.source = m.amplitude.index) :=
    fun he => not_or.mpr ((hedges _).mp he).2
  have hpanner : (feed { m with strategy }).source = m.hrtf.index ∨
      (feed { m with strategy }).source = m.amplitude.index := by
    rcases active_eq { m with strategy } with hact | hact
    · exact .inl (congrArg NodeId.index hact)
    · exact .inr (congrArg NodeId.index hact)
  have honly : ∀ e ∈ feed { m with strategy } :: edges',
      e.source = m.hrtf.index ∨ e.source = m.amplitude.index → e = feed { m with strategy } := by
    intro e he hs
    rcases List.mem_cons.mp he with rfl | he
    · rfl
    · exact absurd hs (hno he)
  refine ⟨⟨?_, ?_, fun e he ht => ?_, fun e he ht => ?_, fun e he ht => ?_, fun e he hs => ?_⟩,
    List.mem_cons_self, honly⟩
  · exact List.mem_cons_of_mem _ ((hedges _).mpr ⟨h.hrtfWire, hIH, hIA⟩)
  · exact List.mem_cons_of_mem _ ((hedges _).mpr ⟨h.amplitudeWire, hIH, hIA⟩)
  · rcases List.mem_cons.mp he with rfl | he
    · exact absurd ht hOH
    · exact h.toHrtf e (hold he) ht
  · rcases List.mem_cons.mp he with rfl | he
    · exact absurd ht hOA
    · exact h.toAmplitude e (hold he) ht
  · rcases List.mem_cons.mp he with rfl | he
    · exact hpanner
    · exact h.toOutput e (hold he) ht
  · rw [honly e he hs]
    exact ⟨rfl, rfl, rfl⟩

section Ready

variable {nA' : Node} {strategy : Strategy} {g' : Graph}

/-- The active panner is there, as wide as the strategy, and nothing leads there from the output
stage. -/
theorem Ready.exists_active (hr : Ready M m g nA strategy g' nA') (h : Inside M m g nI nO nH nA)
    (hl : Loose m g.edges) (hno : ¬ Leads g.edges m.output.index m.input.index) :
    ∃ na, g'.node (active { m with strategy }) = .ok na ∧ na.interior = none ∧
      na.layout = .spread strategy.channels ∧
      ¬ Leads g'.edges m.output.index (active { m with strategy }).index ∧
      active { m with strategy } ≠ m.output := by
  obtain ⟨-, ⟨hOH, hOA⟩, hHA⟩ := nodup_inside.mp (List.nodup_cons.mp h.nodup).2
  obtain ⟨-, ⟨hiOH, hiOA⟩, -⟩ := nodup_map_inside.mp h.nodup_index
  have hno' : ¬ Leads g'.edges m.output.index m.input.index := fun hlead =>
    hno (Relation.ReflTransGen.mono (fun _ _ => Feeds.mono fun e he => ((hr.edges e).mp he).1) _ _
      hlead)
  have hH : ∃ na, g'.node m.hrtf = .ok na ∧ na.interior = none ∧ na.layout = .spread 2 ∧
      ¬ Leads g'.edges m.output.index m.hrtf.index ∧ m.hrtf ≠ m.output := by
    refine ⟨nH, by rw [hr.node, if_neg hHA, h.hrtf], h.interior.2.2.1, h.hrtfLayout, ?_,
      Ne.symm hOH⟩
    exact not_leads_panner (fun e he => hl.toHrtf e ((hr.edges e).mp he).1) rfl hiOH hno'
  have hA : nA'.layout = .spread strategy.channels → ∃ na, g'.node m.amplitude = .ok na ∧
      na.interior = none ∧ na.layout = .spread strategy.channels ∧
      ¬ Leads g'.edges m.output.index m.amplitude.index ∧ m.amplitude ≠ m.output := by
    intro hspread
    have hnode : g'.node m.amplitude = .ok nA' := by rw [hr.node, if_pos rfl]
    refine ⟨nA', hnode, (hr.sound.nested.owned _ _ _ hnode hr.owner).1, hspread, ?_, Ne.symm hOA⟩
    exact not_leads_panner (fun e he => hl.toAmplitude e ((hr.edges e).mp he).1) rfl hiOA hno'
  cases strategy with
  | hrtf => exact hH
  | stereo => exact hA (hr.width.resolve_left (by simp))
  | surround51 => exact hA (hr.width.resolve_left (by simp))
  | surround71 => exact hA (hr.width.resolve_left (by simp))

/-- Nothing feeds the output stage for now. -/
theorem Ready.target_ne (hr : Ready M m g nA strategy g' nA') (hl : Loose m g.edges) {e : Edge}
    (he : e ∈ g'.edges) : e.target ≠ m.output.index := by
  intro ht
  obtain ⟨he, hsH, hsA⟩ := (hr.edges e).mp he
  exact (hl.toOutput e he ht).elim hsH hsA

/-- The connections that leave the output stage end where they did. -/
theorem Ready.layoutAt_target (hr : Ready M m g nA strategy g' nA') (h : Inside M m g nI nO nH nA)
    (hl : Loose m g.edges) {e : Edge} (he : e ∈ g'.edges) (hsrc : e.source = m.output.index) :
    g'.layoutAt e.target = g.layoutAt e.target := by
  obtain ⟨⟨hiIO, -⟩, -⟩ := nodup_map_inside.mp h.nodup_index
  refine layoutAt_congr fun x hx => ?_
  rw [hr.node, if_neg]
  rintro rfl
  rw [hl.toAmplitude e ((hr.edges e).mp he).1 hx.symm] at hsrc
  exact hiIO hsrc

/-- **Once the active panner is set up, the transition is completed.** -/
theorem Inside.run_conclude (h : Inside M m g nI nO nH nA) (hl : Loose m g.edges) {nM : Node}
    (hM : g.node M = .ok nM) (hk : nM.kind = .multipanner m) {w : Nat}
    (hwO : nO.layout = .symmetric w)
    (hout : ∀ e ∈ g.edges, e.source = m.output.index →
      ∃ r, (g.layoutAt e.target).inputSlots[e.inputSlot]? = some r ∧ r.count = strategy.channels)
    (hno : ¬ Leads g.edges m.output.index m.input.index) {s : Session}
    (hr : Ready M m g nA strategy s.graph nA') :
    ∃ g' nO', (conclude M m strategy (active { m with strategy })).run s
        = (.ok (), { s with graph := g' }) ∧
      Switched M m g nM nI nO nH nA strategy g' nO' nA' := by
  obtain ⟨hMin, hnd⟩ := List.nodup_cons.mp h.nodup
  obtain ⟨hMI, hMO, hMH, hMA⟩ := notMem_inside.mp hMin
  obtain ⟨⟨hIO, -, hIA⟩, ⟨hOH, hOA⟩, hHA⟩ := nodup_inside.mp hnd
  have hnodeO : s.graph.node m.output = .ok nO := by rw [hr.node, if_neg hOA, h.output]
  have hnodeM : s.graph.node M = .ok nM := by rw [hr.node, if_neg hMA, hM]
  obtain ⟨na, hna, hplain, hspread, hlead, hactO⟩ := hr.exists_active h hl hno
  have hout' : ∀ e ∈ s.graph.edges, e.source = m.output.index → ∃ r,
      (s.graph.layoutAt e.target).inputSlots[e.inputSlot]? = some r ∧
        r.count = strategy.channels := by
    intro e he hsrc
    rw [hr.layoutAt_target h hl he hsrc]
    exact hout e ((hr.edges e).mp he).1 hsrc
  obtain ⟨g', hrun, hs', hedges', hnode'⟩ := Multipanner.run_conclude hr.sound hnodeM hk hnodeO
    h.interior.2.1 hwO hna hplain hspread (by cases strategy <;> decide) hMO hactO
    (fun e he => hr.target_ne hl he) hout' hlead
  have hview : ∀ {x n}, x ≠ M → x ≠ m.output → s.graph.node x = .ok n → g'.node x = .ok n :=
    fun hxM hxO hn => by rw [hnode', if_neg hxM, if_neg hxO, hn]
  refine ⟨g', _, hrun, ?_, ?_, by rw [hnode', if_pos rfl], rfl, hr.values, hr.current,
    fun x hxM hxO hxA => ?_⟩
  · refine ⟨hs', h.nodup, ?_, ?_, ?_, ?_, ?_, h.inputType, ?_, h.hrtfType, hr.type, h.inputLayout,
      h.hrtfLayout, hr.layout, ?_, h.hrtfFrame, hr.frame⟩
    · exact hview (Ne.symm hMI) hIO (by rw [hr.node, if_neg hIA, h.input])
    · rw [hnode', if_neg (Ne.symm hMO), if_pos rfl]
    · exact hview (Ne.symm hMH) (Ne.symm hOH) (by rw [hr.node, if_neg hHA, h.hrtf])
    · exact hview (Ne.symm hMA) (Ne.symm hOA) (by rw [hr.node, if_pos rfl])
    · intro n hn
      simp only [List.mem_cons, List.not_mem_nil, or_false] at hn
      rcases hn with rfl | rfl | rfl | rfl
      · exact h.owned _ (by simp)
      · rw [rearrange_owner]
        exact h.owned _ (by simp)
      · exact h.owned _ (by simp)
      · exact hr.owner
    · rw [rearrange_kind, NodeKind.type_layoutApplied, h.outputType]
    · rw [rearrange_properties, h.outputFrame]
  · rw [hedges']
    exact hl.switch h.nodup_index strategy hr.edges
  · rw [hnode', if_neg hxM, if_neg hxO, hr.node, if_neg hxA]

end Ready

/-- What a transition of an amplitude panner sets up. -/
theorem Inside.run_retune (h : Inside M m g nI nO nH nA) (hl : Loose m g.edges) {set : Setter}
    (hset : Plain set) {strategy : Strategy} {angles : List Float32}
    (hmap : ChannelMap.standard? strategy.channels = some angles) {s : Session}
    (hs : s.graph.Sound) (hnode : ∀ x, s.graph.node x = g.node x)
    (hedges : ∀ e, e ∈ s.graph.edges ↔
      e ∈ g.edges ∧ e.source ≠ m.hrtf.index ∧ e.source ≠ m.amplitude.index) :
    ∃ g₃ g₄ nA', (configureStandardMap set m.amplitude strategy.channels).run s
        = (.ok (), { s with graph := g₃ }) ∧
      (Graph.recomputeMap m.amplitude).run g₃ = (.ok (), g₄) ∧
      Ready M m g nA strategy g₄ nA' := by
  have hnA : s.graph.node m.amplitude = .ok nA := by rw [hnode, h.amplitude]
  obtain ⟨q, hq⟩ : ∃ q, nA.kind = .amplitudePanner q := by
    have htype := h.amplitudeType
    cases hk : nA.kind with
    | amplitudePanner q => exact ⟨q, rfl⟩
    | _ => rw [hk] at htype; cases htype
  obtain ⟨g₃, hrun₃, hw₃⟩ := run_configureStandardMap hset hs hnA h.amplitudeType h.amplitudeFrame
    hmap
  have hspread := mapLayout_retuned hmap h.amplitudeFrame
  have hcheck : g₃.checkEdges m.amplitude.index (.spread strategy.channels) = .ok () := by
    refine checkEdges_eq_ok.mpr ⟨fun e he => ?_, fun e he => ?_⟩
    · obtain ⟨he, ht⟩ := List.mem_filter.mp he
      rw [hw₃.edges] at he
      rw [hl.toAmplitude e ((hedges e).mp he).1 (of_decide_eq_true ht)]
      obtain ⟨⟨-, -, hIA⟩, -⟩ := nodup_inside.mp (List.nodup_cons.mp h.nodup).2
      have hnI : g₃.node m.input = .ok nI := by rw [hw₃.other hIA, hnode, h.input]
      refine ⟨⟨0, 1⟩, ⟨0, 1⟩, ?_, rfl, rfl⟩
      rw [Multipanner.amplitudeWire, layoutAt_of_nodeAt? (nodeAt?_of_node hnI), h.inputLayout]
      rfl
    · obtain ⟨he, hsrc⟩ := List.mem_filter.mp he
      rw [hw₃.edges] at he
      exact absurd (of_decide_eq_true hsrc) ((hedges e).mp he).2.2
  obtain ⟨g₄, hrun₄, hw₄⟩ := hw₃.sound.wrote_recomputeMap hw₃.self hq
    (by rw [hspread]; exact Layout.inBounds_spread.mpr (by cases strategy <;> decide))
    (by rw [hspread]; exact hcheck)
  have hw := hw₃.trans hw₄
  refine ⟨g₃, g₄, _, hrun₃, hrun₄, hw.sound, fun e => ?_, fun x => by rw [hw.node, hnode], ?_, ?_, ?_,
    ?_, fun p hp => ?_, .inr ?_, .inr (current_rearrange_staged q _ _)⟩
  · rw [hw.edges]
    exact hedges e
  · rw [rearrange_owner]
    exact h.owned nA (by simp)
  · rw [rearrange_kind, NodeKind.type_layoutApplied]
    rfl
  · rw [rearrange_layout, rearrange_properties]
    rfl
  · rw [rearrange_properties]
    exact (frame_retuned _ _).trans h.amplitudeFrame
  · have hne : p ≠ .channelMap ∧ p ≠ .skipCenter ∧ p ≠ .skipLfe := by
      revert p
      decide
    rw [rearrange_properties]
    change (retuned nA.properties angles).get? p = _
    rw [retuned, Properties.get?_modify_of_ne _ (Ne.symm hne.2.2),
      Properties.get?_modify_of_ne _ (Ne.symm hne.2.1), Properties.get?_modify_of_ne _ (Ne.symm hne.1)]
  · rw [rearrange_layout, hspread]

/-- A transition begins by taking both panners off the output stage. -/
theorem Inside.run_begin {s : Session} (h : Inside M m s.graph nI nO nH nA)
    (hl : Loose m s.graph.edges) {nM : Node} (hM : s.graph.node M = .ok nM)
    (hk : nM.kind = .multipanner m) :
    ∃ g₂ : Graph, g₂.Sound ∧ (∀ x, g₂.node x = s.graph.node x) ∧
      (∀ e, e ∈ g₂.edges ↔
        e ∈ s.graph.edges ∧ e.source ≠ m.hrtf.index ∧ e.source ≠ m.amplitude.index) ∧
      ∀ k : Multipanner → Action Unit, (do
          let m ← Action.read fun g => find g M
          Action.change fun g => g.disconnectInterior m.hrtf 0
          Action.change fun g => g.disconnectInterior m.amplitude 0
          k m).run s = (k m).run { s with graph := g₂ } := by
  obtain ⟨g₁, g₂, hd₁, hd₂, hs₂, hv₂, he₂⟩ := h.detach hl
  have hrun₂ : (Action.change fun g => g.disconnectInterior m.amplitude 0).run { s with graph := g₁ }
      = (.ok (), { s with graph := g₂ }) := run_change_ok hd₂
  refine ⟨g₂, hs₂, hv₂, he₂, fun k => ?_⟩
  rw [run_bind_ok (run_read_ok (find_eq_ok.mpr ⟨nM, hM, hk⟩)), run_bind_ok (run_change_ok hd₁),
    run_bind_ok hrun₂]

/-- **A transition to a strategy whose width is accepted succeeds.** -/
theorem Inside.run_transition {s : Session} (h : Inside M m s.graph nI nO nH nA)
    (hl : Loose m s.graph.edges) {nM : Node} (hM : s.graph.node M = .ok nM)
    (hk : nM.kind = .multipanner m) {w : Nat} (hwO : nO.layout = .symmetric w) {strategy : Strategy}
    (hout : ∀ e ∈ s.graph.edges, e.source = m.output.index → ∃ r,
      (s.graph.layoutAt e.target).inputSlots[e.inputSlot]? = some r ∧ r.count = strategy.channels)
    (hno : ¬ Leads s.graph.edges m.output.index m.input.index) {set : Setter}
    (hset : strategy = .hrtf ∨ Plain set) :
    ∃ g' nO' nA', (transition set M strategy).run s = (.ok (), { s with graph := g' }) ∧
      Switched M m s.graph nM nI nO nH nA strategy g' nO' nA' := by
  obtain ⟨g₂, hs₂, hv₂, he₂, hbegin⟩ := h.run_begin hl hM hk
  -- the panner that becomes active is set up, if it is the amplitude panner
  have htune : ∀ {angles}, ChannelMap.standard? strategy.channels = some angles →
      strategy ≠ .hrtf → ∃ g' nO' nA', (do
          configureStandardMap set m.amplitude strategy.channels
          .onGraph (Graph.recomputeMap m.amplitude)
          conclude M m strategy (active { m with strategy })).run { s with graph := g₂ }
            = (.ok (), { s with graph := g' }) ∧
        Switched M m s.graph nM nI nO nH nA strategy g' nO' nA' := by
    intro angles hmap hne
    obtain ⟨g₃, g₄, nA', hrun₃, hrun₄, hready⟩ :=
      h.run_retune hl (hset.resolve_left hne) hmap (s := { s with graph := g₂ }) hs₂ hv₂ he₂
    obtain ⟨g', nO', hrun, hswitched⟩ := h.run_conclude hl hM hk hwO hout hno
      (s := { s with graph := g₄ }) hready
    have hrun₄' : (Action.onGraph (Graph.recomputeMap m.amplitude)).run { s with graph := g₃ }
        = (.ok (), { s with graph := g₄ }) := by
      rw [run_onGraph]
      simp only [hrun₄]
    exact ⟨g', nO', nA', (run_bind_ok hrun₃).trans ((run_bind_ok hrun₄').trans hrun), hswitched⟩
  rw [transition, hbegin]
  cases strategy with
  | hrtf =>
    have hready : Ready M m s.graph nA .hrtf g₂ nA := by
      refine ⟨hs₂, he₂, fun x => ?_, h.owned nA (by simp), h.amplitudeType, h.amplitudeLayout,
        h.amplitudeFrame, fun _ _ => rfl, .inl rfl, .inl rfl⟩
      rw [hv₂]
      split
      · next hx => rw [hx, h.amplitude]
      · rfl
    obtain ⟨g', nO', hrun, hswitched⟩ := h.run_conclude hl hM hk hwO hout hno
      (s := { s with graph := g₂ }) hready
    exact ⟨g', nO', nA, hrun, hswitched⟩
  | stereo => exact htune rfl (by decide)
  | surround51 => exact htune rfl (by decide)
  | surround71 => exact htune rfl (by decide)

/-- Without room for nested changes only a transition to the HRTF panner is completed. -/
theorem Inside.run_transition_aborted {s : Session} (h : Inside M m s.graph nI nO nH nA)
    (hl : Loose m s.graph.edges) {nM : Node} (hM : s.graph.node M = .ok nM)
    (hk : nM.kind = .multipanner m) {strategy : Strategy} (hne : strategy ≠ .hrtf) {set : Setter}
    (hset : Aborts set) :
    ∃ a t, (transition set M strategy).run s = (.error (.aborted a), t) := by
  obtain ⟨g₂, -, hv₂, -, hbegin⟩ := h.run_begin hl hM hk
  obtain ⟨angles, hmap⟩ : ∃ angles, ChannelMap.standard? strategy.channels = some angles := by
    cases strategy with
    | hrtf => exact absurd rfl hne
    | _ => exact ⟨_, rfl⟩
  obtain ⟨a, ha⟩ := hset m.amplitude .channelMap (.floatArray angles) { s with graph := g₂ }
  have hconfigure : (configureStandardMap set m.amplitude strategy.channels).run
      { s with graph := g₂ } = (.error (.aborted a), { s with graph := g₂ }) := by
    have hA : g₂.node m.amplitude = .ok nA := by rw [hv₂, h.amplitude]
    rw [configureStandardMap, hmap]
    exact (run_bind_ok (run_expect (s := { s with graph := g₂ }) hA h.amplitudeType)).trans
      (run_bind_error ha)
  refine ⟨a, { s with graph := g₂ }, ?_⟩
  rw [transition, hbegin]
  cases strategy with
  | hrtf => exact absurd rfl hne
  | _ => exact run_bind_error hconfigure

end Multipanner

end SpatialAudio
