import SpatialAudio.Proofs.Housing
import SpatialAudio.Proofs.Switching

/-!
# Proofs/Upkeep — a multipanner stays as it is while its interior is left alone

`Arranged` says all there is to say about a multipanner between operations: its nodes are as they
were made, wired for its strategy, and hold the values of its properties.  No operation on other
nodes changes any of that (`Undisturbed`), because connections meet the nodes inside only through
the ends of the subgraph.  So being arranged is stable under every use of nodes that spares the
interior (`stable_kept`).
-/

namespace SpatialAudio

open SpatialAudio.Graph

/-- Two states of a node that plays one part: it has one place and one type, and its properties are
the same up to their values. -/
structure Node.Kin (n n' : Node) : Prop where
  owner : n'.owner = n.owner
  interior : n'.interior = n.interior
  type : n'.kind.type = n.kind.type
  panner : ∀ m, n.kind = .multipanner m → n'.kind = .multipanner m
  frame : n'.properties.frame = n.properties.frame

/-- Two such states with properties of one value. -/
structure Node.Twin (n n' : Node) : Prop extends n.Kin n' where
  value? : ∀ p, n'.properties.value? p = n.properties.value? p

theorem Node.Kin.refl (n : Node) : n.Kin n := ⟨rfl, rfl, rfl, fun _ h => h, rfl⟩

theorem Node.Twin.refl (n : Node) : n.Twin n := ⟨.refl n, fun _ => rfl⟩

theorem Node.Played.twin {n n' : Node} (h : n.Played n') : n.Twin n' :=
  ⟨⟨h.owner, h.interior, h.type, h.panner, Properties.frame_of_clearModified h.properties⟩,
    Properties.value?_of_clearModified h.properties⟩

/-- The layout of a map depends on few values. -/
theorem mapLayout_congr {ps qs : Properties}
    (h : ∀ p ∈ AmplitudePanner.mapProperties, ps.value? p = qs.value? p) :
    mapLayout ps = mapLayout qs := by
  have hfloats : ps.floatArray .channelMap = qs.floatArray .channelMap := by
    have hvalue : (ps.get? .channelMap).map Property.value = (qs.get? .channelMap).map
      Property.value := h .channelMap (by decide)
    rw [Properties.floatArray, Properties.floatArray, hvalue]
  have hint : ∀ p ∈ AmplitudePanner.mapProperties, ps.int p = qs.int p := fun p hp => by
    have hvalue : (ps.get? p).map Property.value = (qs.get? p).map Property.value := h p hp
    rw [Properties.int, Properties.int, hvalue]
  simp only [mapLayout, AmplitudePanner.describedMap, Properties.flag, hfloats,
    hint .skipCenter (by decide), hint .skipLfe (by decide)]

namespace Multipanner

/-- A multipanner is in order. -/
structure Arranged (M : NodeId) (m : Multipanner) (g : Graph) (nM nI nO nH nA : Node) : Prop
    extends Inside M m g nI nO nH nA where
  wired : Wired m g.edges
  outputLayout : nO.layout = .symmetric m.strategy.channels
  panner : g.node M = .ok nM
  kind : nM.kind = .multipanner m
  owner : nM.owner = none
  ends : nM.interior = some ⟨m.input, m.output⟩
  frame : nM.properties.frame = observed.frame
  strategy : nM.properties.value? .strategy = some (.int m.strategy.toInt)
  toHrtf : ∀ p ∈ forwardedToPanners, nH.properties.value? p = nM.properties.value? p
  toAmplitude : ∀ p ∈ forwardedToPanners, nA.properties.value? p = nM.properties.value? p
  toOutput : ∀ p ∈ forwardedToOutput, nO.properties.value? p = nM.properties.value? p
  /-- No other multipanner shares a node with it. -/
  apart : ∀ x n k, g.node x = .ok n → n.kind = .multipanner k → x ≠ M →
    ∀ y ∈ k.inside, y ∉ M :: m.inside

/-- A multipanner is in order, under some strategy. -/
def Kept (M : NodeId) (m : Multipanner) (g : Graph) : Prop :=
  ∃ strategy nM nI nO nH nA, Arranged M { m with strategy } g nM nI nO nH nA

/-- The connections that a multipanner relies on. -/
def Touches (m : Multipanner) (e : Edge) : Prop :=
  (e.target = m.hrtf.index ∨ e.target = m.amplitude.index ∨ e.target = m.output.index) ∨
    (e.source = m.hrtf.index ∨ e.source = m.amplitude.index)

/-- A handle names a node that plays the part it did, in the layout it had. -/
structure Refit (g : Graph) (x : NodeId) (n n' : Node) : Prop where
  node : g.node x = .ok n'
  kin : n.Kin n'
  layout : n'.layout = n.layout

/-- A change of the graph that leaves a multipanner alone. -/
structure Undisturbed (M : NodeId) (m : Multipanner) (g g' : Graph) : Prop where
  sound : g'.Sound
  panner : ∀ n, g.node M = .ok n → ∃ n', g'.node M = .ok n' ∧ n.Twin n'
  inside : ∀ x ∈ m.inside, ∀ n, g.node x = .ok n →
    ∃ n', g'.node x = .ok n' ∧ n'.layout = n.layout ∧ n.Twin n'
  edges : ∀ e, Touches m e → (e ∈ g'.edges ↔ e ∈ g.edges)
  apart : ∀ x n' k, g'.node x = .ok n' → n'.kind = .multipanner k → x ≠ M →
    (∃ n k', g.node x = .ok n ∧ n.kind = .multipanner k' ∧ k.inside = k'.inside) ∨
      ∀ y ∈ k.inside, y ∉ M :: m.inside

variable {M : NodeId} {m : Multipanner} {g g' : Graph} {nM nI nO nH nA : Node}

theorem Wired.congr {edges edges' : List Edge} (h : Wired m edges)
    (he : ∀ e, Touches m e → (e ∈ edges' ↔ e ∈ edges)) : Wired m edges' where
  hrtfWire := (he _ (.inl (.inl rfl))).mpr h.hrtfWire
  amplitudeWire := (he _ (.inl (.inr (.inl rfl)))).mpr h.amplitudeWire
  toHrtf e hmem ht := h.toHrtf e ((he e (.inl (.inl ht))).mp hmem) ht
  toAmplitude e hmem ht := h.toAmplitude e ((he e (.inl (.inr (.inl ht)))).mp hmem) ht
  toOutput e hmem ht := h.toOutput e ((he e (.inl (.inr (.inr ht)))).mp hmem) ht
  fromPanner e hmem hs := h.fromPanner e ((he e (.inr hs)).mp hmem) hs
  feed := (he _ (.inl (.inr (.inr rfl)))).mpr h.feed
  onlyFeed e hmem hs := h.onlyFeed e ((he e (.inr hs)).mp hmem) hs

/-- The nodes inside are alive and private. -/
theorem Inside.member (h : Inside M m g nI nO nH nA) {x : NodeId} (hx : x ∈ m.inside) :
    ∃ n, g.node x = .ok n ∧ n.owner = some M := by
  rcases mem_inside.mp hx with rfl | rfl | rfl | rfl
  · exact ⟨nI, h.input, h.owned _ (by simp)⟩
  · exact ⟨nO, h.output, h.owned _ (by simp)⟩
  · exact ⟨nH, h.hrtf, h.owned _ (by simp)⟩
  · exact ⟨nA, h.amplitude, h.owned _ (by simp)⟩

/-- No multipanner is inside a multipanner. -/
theorem Inside.kind_ne (h : Inside M m g nI nO nH nA) {x : NodeId} (hx : x ∈ m.inside) {n : Node}
    (hn : g.node x = .ok n) (k : Multipanner) : n.kind ≠ .multipanner k := by
  have htype : n.kind.type ≠ .multipanner := by
    rcases mem_inside.mp hx with rfl | rfl | rfl | rfl
    · cases hn.symm.trans h.input
      simp [h.inputType]
    · cases hn.symm.trans h.output
      simp [h.outputType]
    · cases hn.symm.trans h.hrtf
      simp [h.hrtfType]
    · cases hn.symm.trans h.amplitude
      simp [h.amplitudeType]
  exact fun hk => htype (by rw [hk]; rfl)

/-- A multipanner whose nodes play the parts they did is in order if their values agree. -/
theorem Arranged.renew (h : Arranged M m g nM nI nO nH nA) {nM' nI' nO' nH' nA' : Node}
    (hs : g'.Sound) (hM : g'.node M = .ok nM') (hkM : nM.Kin nM') (hI : Refit g' m.input nI nI')
    (hO : Refit g' m.output nO nO') (hH : Refit g' m.hrtf nH nH')
    (hA : Refit g' m.amplitude nA nA') (hwired : Wired m g'.edges)
    (hmap : ∀ p ∈ AmplitudePanner.mapProperties, nA'.properties.value? p = nA.properties.value? p)
    (hstrategy : nM'.properties.value? .strategy = nM.properties.value? .strategy)
    (htoHrtf : ∀ p ∈ forwardedToPanners, nH'.properties.value? p = nM'.properties.value? p)
    (htoAmplitude : ∀ p ∈ forwardedToPanners, nA'.properties.value? p = nM'.properties.value? p)
    (htoOutput : ∀ p ∈ forwardedToOutput, nO'.properties.value? p = nM'.properties.value? p)
    (hapart : ∀ x n k, g'.node x = .ok n → n.kind = .multipanner k → x ∉ M :: m.inside →
      ∀ y ∈ k.inside, y ∉ M :: m.inside) : Arranged M m g' nM' nI' nO' nH' nA' := by
  have hinside : Inside M m g' nI' nO' nH' nA' := {
    sound := hs
    nodup := h.nodup
    input := hI.node
    output := hO.node
    hrtf := hH.node
    amplitude := hA.node
    owned n hn := by
      simp only [List.mem_cons, List.not_mem_nil, or_false] at hn
      rcases hn with rfl | rfl | rfl | rfl
      · exact hI.kin.owner.trans (h.owned _ (by simp))
      · exact hO.kin.owner.trans (h.owned _ (by simp))
      · exact hH.kin.owner.trans (h.owned _ (by simp))
      · exact hA.kin.owner.trans (h.owned _ (by simp))
    inputType := hI.kin.type.trans h.inputType
    outputType := hO.kin.type.trans h.outputType
    hrtfType := hH.kin.type.trans h.hrtfType
    amplitudeType := hA.kin.type.trans h.amplitudeType
    inputLayout := hI.layout.trans h.inputLayout
    hrtfLayout := hH.layout.trans h.hrtfLayout
    amplitudeLayout := by rw [hA.layout, h.amplitudeLayout, mapLayout_congr hmap]
    outputFrame := hO.kin.frame.trans h.outputFrame
    hrtfFrame := hH.kin.frame.trans h.hrtfFrame
    amplitudeFrame := hA.kin.frame.trans h.amplitudeFrame }
  refine ⟨hinside, hwired, hO.layout.trans h.outputLayout, hM, hkM.panner m h.kind,
    hkM.owner.trans h.owner, hkM.interior.trans h.ends, hkM.frame.trans h.frame,
    hstrategy.trans h.strategy, htoHrtf, htoAmplitude, htoOutput, fun x n k hx hk hne => ?_⟩
  by_cases hmem : x ∈ m.inside
  · exact absurd hk (hinside.kind_ne hmem hx k)
  · exact hapart x n k hx hk fun hin => (List.mem_cons.mp hin).elim hne hmem

/-- **What is undisturbed stays in order.** -/
theorem Arranged.undisturbed (h : Arranged M m g nM nI nO nH nA) (hu : Undisturbed M m g g') :
    ∃ nM nI nO nH nA, Arranged M m g' nM nI nO nH nA := by
  obtain ⟨nM', hM, htM⟩ := hu.panner nM h.panner
  obtain ⟨nI', hI, hlI, htI⟩ := hu.inside m.input m.input_mem nI h.input
  obtain ⟨nO', hO, hlO, htO⟩ := hu.inside m.output m.output_mem nO h.output
  obtain ⟨nH', hH, hlH, htH⟩ := hu.inside m.hrtf m.hrtf_mem nH h.hrtf
  obtain ⟨nA', hA, hlA, htA⟩ := hu.inside m.amplitude m.amplitude_mem nA h.amplitude
  refine ⟨nM', nI', nO', nH', nA', h.renew hu.sound hM htM.toKin ⟨hI, htI.toKin, hlI⟩
    ⟨hO, htO.toKin, hlO⟩ ⟨hH, htH.toKin, hlH⟩ ⟨hA, htA.toKin, hlA⟩ (h.wired.congr hu.edges)
    (fun p _ => htA.value? p) (htM.value? _) ?_ ?_ ?_ ?_⟩
  · exact fun p hp => by rw [htH.value?, htM.value?, h.toHrtf p hp]
  · exact fun p hp => by rw [htA.value?, htM.value?, h.toAmplitude p hp]
  · exact fun p hp => by rw [htO.value?, htM.value?, h.toOutput p hp]
  · intro x n k hx hk hmem
    have hne : x ≠ M := fun hM => hmem (hM ▸ List.mem_cons_self)
    rcases hu.apart x n k hx hk hne with ⟨n₀, k₀, hx₀, hk₀, hin⟩ | hfree
    · rw [hin]
      exact h.apart x n₀ k₀ hx₀ hk₀ hne
    · exact hfree

theorem Arranged.kept {strategy : Strategy} (h : Arranged M { m with strategy } g nM nI nO nH nA)
    (hu : Undisturbed M { m with strategy } g g') : Kept M m g' :=
  ⟨strategy, h.undisturbed hu⟩

/-! ## Changes elsewhere -/

theorem Inside.not_mem_of_public (h : Inside M m g nI nO nH nA) {x : NodeId} {n : Node}
    (hn : g.node x = .ok n) (hown : n.owner = none) : x ∉ m.inside := by
  intro hx
  obtain ⟨n', hn', hown'⟩ := h.member hx
  rw [hn] at hn'
  cases hn'
  rw [hown] at hown'
  cases hown'

theorem Arranged.alive (h : Arranged M m g nM nI nO nH nA) {x : NodeId} (hx : x ∈ M :: m.inside) :
    ∃ n, g.node x = .ok n := by
  rcases List.mem_cons.mp hx with rfl | hx
  · exact ⟨nM, h.panner⟩
  · exact (h.member hx).imp fun _ => And.left

/-- Handles that name nothing are none of a multipanner's. -/
theorem Arranged.not_mem (h : Arranged M m g nM nI nO nH nA) {x : NodeId}
    (hx : ∀ n, g.node x ≠ .ok n) : x ∉ M :: m.inside := by
  intro hmem
  obtain ⟨n, hn⟩ := h.alive hmem
  exact hx n hn

theorem undisturbed_of_within (hs : g.Sound) (hw : Within Node.Played g g') :
    Undisturbed M m g g' where
  sound := hs.pullStep (.played hw)
  panner n hn := by
    obtain ⟨n', hn', hp⟩ := hw.node_forth hn
    exact ⟨n', hn', hp.twin⟩
  inside x _ n hn := by
    obtain ⟨n', hn', hp⟩ := hw.node_forth hn
    exact ⟨n', hn', hp.layout, hp.twin⟩
  edges e _ := by rw [hw.edges]
  apart x n' k hn' hk _ := by
    obtain ⟨n, hn, hp⟩ := hw.node_back hn'
    exact .inl ⟨n, k, hn, hp.panner_iff.mp hk, rfl⟩

/-- Nothing happens to the nodes of the multipanner. -/
theorem undisturbed_of_node (hs : g'.Sound) (hnode : ∀ x ∈ M :: m.inside, g'.node x = g.node x)
    (hedges : ∀ e, Touches m e → (e ∈ g'.edges ↔ e ∈ g.edges))
    (hapart : ∀ x n' k, g'.node x = .ok n' → n'.kind = .multipanner k → x ≠ M →
      (∃ n k', g.node x = .ok n ∧ n.kind = .multipanner k' ∧ k.inside = k'.inside) ∨
        ∀ y ∈ k.inside, y ∉ M :: m.inside) : Undisturbed M m g g' where
  sound := hs
  panner n hn :=
    ⟨n, by rw [hnode M List.mem_cons_self, hn], .refl n⟩
  inside x hx n hn :=
    ⟨n, by rw [hnode x (List.mem_cons_of_mem M hx), hn], rfl, .refl n⟩
  edges := hedges
  apart := hapart

/-- Nothing happens to nodes at all. -/
theorem undisturbed_of_edges (hs : g'.Sound) (hnode : ∀ x, g'.node x = g.node x)
    (hedges : ∀ e, Touches m e → (e ∈ g'.edges ↔ e ∈ g.edges)) : Undisturbed M m g g' :=
  undisturbed_of_node hs (fun x _ => hnode x) hedges fun x n k hx hk _ =>
    .inl ⟨n, k, by rw [← hnode, hx], hk, rfl⟩

/-- One node elsewhere is written. -/
theorem undisturbed_of_wrote {id : NodeId} {n' : Node} (hw : g.Wrote id n' g')
    (hid : id ∉ M :: m.inside)
    (hk : ∀ k, n'.kind = .multipanner k →
      ∃ n k', g.node id = .ok n ∧ n.kind = .multipanner k' ∧ k.inside = k'.inside) :
    Undisturbed M m g g' := by
  refine undisturbed_of_node hw.sound (fun x hx => hw.other (ne_of_mem_of_not_mem hx hid))
    (fun e _ => by rw [hw.edges]) fun x n k hn hkind _ => .inl ?_
  rw [hw.node] at hn
  split at hn
  · next hx =>
    cases hn
    rw [hx]
    exact hk k hkind
  · exact ⟨n, k, hn, hkind, rfl⟩

theorem undisturbed_refl (hs : g.Sound) : Undisturbed M m g g :=
  undisturbed_of_edges hs (fun _ => rfl) fun _ _ => Iff.rfl

/-! ## Connections -/

/-- A node outside is redirected inside only if it is the multipanner itself. -/
theorem Arranged.end_eq (h : Arranged M m g nM nI nO nH nA) {side : Interior → NodeId}
    (hside : ∀ e : Interior, side e = e.input ∨ side e = e.output) {id x : NodeId} {n : Node}
    (hn : g.node id = .ok n) (hid : id ∉ m.inside) (hx : x ∈ m.inside)
    (heq : (match n.interior with
      | some e => (side e).index
      | none => id.index) = x.index) : x = side ⟨m.input, m.output⟩ := by
  obtain ⟨nx, hnx, hown⟩ := h.member hx
  cases he : n.interior with
  | none =>
    rw [he] at heq
    exact absurd hx (eq_of_index_eq hn hnx heq ▸ hid)
  | some e =>
    rw [he] at heq
    obtain ⟨k, hk, -, hown'⟩ := h.sound.nested.ends id n e hn he (side e) (hside e)
    have hxe := eq_of_index_eq hk hnx heq
    rw [hxe, hnx] at hk
    cases hk
    rw [hown] at hown'
    cases hown'
    rw [h.panner] at hn
    cases hn
    rw [h.ends] at he
    cases he
    exact hxe.symm

/-- Connections that leave a node outside begin inside only at the output stage. -/
theorem Arranged.sourceEnd_eq (h : Arranged M m g nM nI nO nH nA) {id x : NodeId} {n : Node}
    (hn : g.node id = .ok n) (hid : id ∉ m.inside) (hx : x ∈ m.inside)
    (heq : n.sourceEnd id = x.index) : x = m.output :=
  h.end_eq (fun _ => .inr rfl) hn hid hx heq

/-- Connections that enter a node outside end inside only at the input stage. -/
theorem Arranged.targetEnd_eq (h : Arranged M m g nM nI nO nH nA) {id x : NodeId} {n : Node}
    (hn : g.node id = .ok n) (hid : id ∉ m.inside) (hx : x ∈ m.inside)
    (heq : n.targetEnd id = x.index) : x = m.input :=
  h.end_eq (fun _ => .inl rfl) hn hid hx heq

/-- What a multipanner relies on runs inside, and does not leave the output stage. -/
theorem Wired.ends {edges : List Edge} (h : Wired m edges) (hnd : m.inside.Nodup) {e : Edge}
    (he : e ∈ edges) (ht : Touches m e) :
    (∃ x ∈ m.inside, x ≠ m.output ∧ e.source = x.index) ∧ ∃ y ∈ m.inside, e.target = y.index := by
  obtain ⟨⟨hIO, -⟩, ⟨hOH, hOA⟩, -⟩ := nodup_inside.mp hnd
  have hpanner : e.source = m.hrtf.index ∨ e.source = m.amplitude.index →
      ∃ x ∈ m.inside, x ≠ m.output ∧ e.source = x.index := by
    rintro (hs | hs)
    · exact ⟨m.hrtf, m.hrtf_mem, Ne.symm hOH, hs⟩
    · exact ⟨m.amplitude, m.amplitude_mem, Ne.symm hOA, hs⟩
  rcases ht with (ht | ht | ht) | hs
  · rw [h.toHrtf e he ht]
    exact ⟨⟨m.input, m.input_mem, hIO, rfl⟩, m.hrtf, m.hrtf_mem, rfl⟩
  · rw [h.toAmplitude e he ht]
    exact ⟨⟨m.input, m.input_mem, hIO, rfl⟩, m.amplitude, m.amplitude_mem, rfl⟩
  · exact ⟨hpanner (h.toOutput e he ht), m.output, m.output_mem, ht⟩
  · exact ⟨hpanner hs, m.output, m.output_mem, (h.fromPanner e he hs).2.1⟩

theorem Arranged.connectAt (h : Arranged M m g nM nI nO nH nA) {a b : NodeId} {na nb : Node}
    {o k : Nat} (hna : g.node a = .ok na) (hnb : g.node b = .ok nb) (ha : a ∉ m.inside)
    (hb : b ∉ m.inside) (hc : g.connectAt a.index o b.index k = .ok g') : Undisturbed M m g g' := by
  refine undisturbed_of_edges (h.sound.connectAt hc) (node_connectAt hc) fun e he => ?_
  obtain ⟨source, target, hsource, htarget, -, -, rfl⟩ := connectAt_eq_ok.mp hc
  rw [h.sound.nested.sourceSide hna] at hsource
  rw [h.sound.nested.targetSide hnb] at htarget
  cases hsource
  cases htarget
  split
  · rfl
  · rw [edges_reschedule]
    refine ⟨fun hin => (List.mem_cons.mp hin).resolve_left ?_, List.mem_cons_of_mem _⟩
    -- a new connection touches nothing that the multipanner relies on
    obtain ⟨⟨hIO, hIH, hIA⟩, ⟨hOH, hOA⟩, -⟩ := nodup_inside.mp (List.nodup_cons.mp h.nodup).2
    rintro rfl
    rcases he with (ht | ht | ht) | (ht | ht)
    · exact hIH (h.targetEnd_eq hnb hb m.hrtf_mem ht).symm
    · exact hIA (h.targetEnd_eq hnb hb m.amplitude_mem ht).symm
    · exact hIO (h.targetEnd_eq hnb hb m.output_mem ht).symm
    · exact hOH (h.sourceEnd_eq hna ha m.hrtf_mem ht).symm
    · exact hOA (h.sourceEnd_eq hna ha m.amplitude_mem ht).symm

theorem Arranged.disconnectAt (h : Arranged M m g nM nI nO nH nA) {a : NodeId} {na : Node} {o : Nat}
    (hna : g.node a = .ok na) (ha : a ∉ m.inside) (hc : g.disconnectAt a.index o = .ok g') :
    Undisturbed M m g g' := by
  refine undisturbed_of_edges (h.sound.disconnectAt hc) (node_disconnectAt hc) fun e he => ?_
  obtain ⟨source, r, hsource, -, rfl⟩ := disconnectAt_eq_ok.mp hc
  rw [h.sound.nested.sourceSide hna] at hsource
  cases hsource
  split
  · rw [edges_reschedule]
    refine ⟨List.mem_of_mem_filter, fun hin => List.mem_filter.mpr ⟨hin, ?_⟩⟩
    obtain ⟨⟨x, hx, hne, hsource⟩, -⟩ := h.wired.ends (List.nodup_cons.mp h.nodup).2 hin he
    refine decide_eq_true fun hgone => hne ?_
    exact h.sourceEnd_eq hna ha hx (hgone.1.symm.trans hsource)
  · rfl

/-! ## Nodes -/

theorem Arranged.remove (h : Arranged M m g nM nI nO nH nA) {id : NodeId} (hid : id ≠ M)
    (hr : g.remove id = .ok g') : Undisturbed M m g g' := by
  have hs := h.sound.remove hr
  obtain ⟨⟨n, hn, hown⟩, rfl⟩ := (remove_eq_ok h.sound.toCoherent).mp hr
  have hret := h.sound.toCoherent.retired hn hown
  have hstays : ∀ x ∈ M :: m.inside, x.index ∉ g.household id := by
    intro x hx hmem
    obtain ⟨nx, hnx⟩ := h.alive hx
    rcases mem_household.mp hmem with hmem | hindex
    · obtain ⟨n', hn', hown'⟩ := mem_ownedBy.mp hmem
      rw [nodeAt?_of_node hnx] at hn'
      cases hn'
      rcases List.mem_cons.mp hx with rfl | hx
      · rw [h.panner] at hnx
        cases hnx
        rw [h.owner] at hown'
        cases hown'
      · obtain ⟨n', hn', hownM⟩ := h.member hx
        rw [hnx] at hn'
        cases hn'
        rw [hown'] at hownM
        exact hid (Option.some.inj hownM)
    · have hxid := eq_of_index_eq hnx hn hindex
      rcases List.mem_cons.mp hx with rfl | hx
      · exact hid hxid.symm
      · exact h.not_mem_of_public hn hown (hxid ▸ hx)
  refine undisturbed_of_node hs (fun x hx => ?_) (fun e he => ?_) fun x n' k hx hk _ => .inl ?_
  · rw [node_reschedule]
    refine node_congr (fun n' => ?_) rfl
    rw [hret.node]
    exact and_iff_right (hstays x hx)
  · rw [edges_reschedule, hret.edges, List.mem_filter, decide_eq_true_eq]
    refine and_iff_left_of_imp fun hin => ?_
    obtain ⟨⟨x, hx, -, hsource⟩, y, hy, htarget⟩ :=
      h.wired.ends (List.nodup_cons.mp h.nodup).2 hin he
    rw [hsource, htarget]
    exact ⟨hstays x (List.mem_cons_of_mem M hx), hstays y (List.mem_cons_of_mem M hy)⟩
  · rw [node_reschedule] at hx
    exact ⟨n', k, (hret.node.mp hx).2, hk, rfl⟩

theorem Arranged.modifyProperty (h : Arranged M m g nM nI nO nH nA) {id : NodeId}
    (hid : id ∉ M :: m.inside) (p : PropertyId) (f : Property → Property) :
    Undisturbed M m g (g.modifyProperty id p f) := by
  rcases h.sound.modifyProperty_cases id p f with hsame | ⟨n, hn, hw⟩
  · rw [hsame]
    exact undisturbed_refl h.sound
  · exact undisturbed_of_wrote hw hid fun k hk => ⟨n, k, hn, hk, rfl⟩

theorem Arranged.applyLayout (h : Arranged M m g nM nI nO nH nA) {id : NodeId} {l : Layout}
    (hid : id ∉ m.inside) (happly : g.applyLayout id l = .ok g') : Undisturbed M m g g' := by
  obtain ⟨n, hn, hw⟩ := h.sound.exists_applyLayout happly
  by_cases hM : id = M
  · -- the layout of the multipanner itself is nothing that it relies on
    subst hM
    refine ⟨hw.sound, fun n₀ hn₀ => ⟨_, hw.self, ?_⟩, fun x hx n₀ hn₀ => ⟨n₀, ?_, rfl, ?_⟩,
      fun e _ => by rw [hw.edges], fun x n' k hx hk hne => .inl ?_⟩
    · rw [hn] at hn₀
      cases hn₀
      exact ⟨⟨rearrange_owner _ _, rearrange_interior _ _,
        by rw [rearrange_kind, NodeKind.type_layoutApplied],
        fun k hk => by rw [rearrange_kind, NodeKind.layoutApplied_eq_multipanner, hk],
        by rw [rearrange_properties]⟩, fun p => by rw [rearrange_properties]⟩
    · rw [hw.other (ne_of_mem_of_not_mem hx hid), hn₀]
    · exact .refl n₀
    · rw [hw.other hne] at hx
      exact ⟨n', k, hx, hk, rfl⟩
  · refine undisturbed_of_wrote hw (fun hmem => (List.mem_cons.mp hmem).elim hM hid) fun k hk => ?_
    rw [rearrange_kind, NodeKind.layoutApplied_eq_multipanner] at hk
    exact ⟨n, k, hn, hk, rfl⟩

theorem Arranged.recomputeMap (h : Arranged M m g nM nI nO nH nA) {id : NodeId}
    (hid : id ∉ m.inside) : Undisturbed M m g ((Graph.recomputeMap id).run g).2 := by
  rcases h.sound.recomputeMap_cases id with hsame | ⟨n, n', q, q', hn, hk, hk', -, hw⟩
  · rw [hsame]
    exact undisturbed_refl h.sound
  · refine undisturbed_of_wrote hw (fun hmem => ?_) fun k hkind => ?_
    · refine (List.mem_cons.mp hmem).elim (fun hM => ?_) hid
      rw [hM, h.panner] at hn
      cases hn
      rw [h.kind] at hk
      cases hk
    · rw [hk'] at hkind
      cases hkind

theorem Arranged.strategyOf (h : Arranged M m g nM nI nO nH nA) {id : NodeId}
    (hid : id ∉ M :: m.inside) {k : Multipanner} (hfind : find g id = .ok k) (strategy : Strategy) :
    Undisturbed M m g
      (g.modifyAt id.index fun n => { n with kind := .multipanner { k with strategy } }) := by
  obtain ⟨n, hn, hk⟩ := find_eq_ok.mp hfind
  have hw := h.sound.wrote (f := fun n => { n with kind := .multipanner { k with strategy } }) hn
    ⟨⟨rfl, rfl, rfl⟩, rfl, rfl⟩
  refine undisturbed_of_wrote hw hid fun k' hk' => ⟨n, k, hn, hk, ?_⟩
  cases hk'
  rfl

/-! ## New nodes -/

theorem Arranged.associate (h : Arranged M m g nM nI nO nH nA) {k : NodeKind}
    (hk : k.type ≠ .multipanner) (l : Layout) :
    Undisturbed M m g ((Graph.associate k l).run g).2 := by
  rcases associate_cases h.sound k l with ⟨g', hrun, hw⟩ | ⟨e, g', hrun, hs, hnode, hedges⟩
  · rw [hrun]
    refine undisturbed_of_wrote hw (h.not_mem h.sound.arena.node_nextHandle) fun k' hk' => ?_
    have hkind : k = .multipanner k' := NodeKind.layoutApplied_eq_multipanner.mp hk'
    rw [hkind] at hk
    exact absurd rfl hk
  · rw [hrun]
    exact undisturbed_of_edges hs hnode fun e _ => by rw [hedges]

theorem Arranged.associated (h : Arranged M m g nM nI nO nH nA) {k : NodeKind} {l : Layout}
    {id : NodeId} (hrun : (Graph.associate k l).run g = (.ok id, g')) : id ∉ M :: m.inside := by
  rcases associate_cases h.sound k l with ⟨g₁, hrun₁, -⟩ | ⟨e, g₁, hrun₁, -⟩
  · rw [hrun] at hrun₁
    cases hrun₁
    exact h.not_mem h.sound.arena.node_nextHandle
  · rw [hrun] at hrun₁
    cases hrun₁

/-- Another multipanner is made of other nodes. -/
theorem Arranged.assembled (h : Arranged M m g nM nI nO nH nA) {id : NodeId} {k : Multipanner}
    (ha : Assembled g id k g') : Undisturbed M m g g' := by
  have hnew : ∀ x ∈ M :: m.inside, x ∉ id :: k.inside := by
    intro x hx hmem
    obtain ⟨n, hn⟩ := h.alive hx
    exact ha.fresh x hmem n hn
  -- the new connections run between new nodes
  have htouch : ∀ {y}, y ∈ k.inside → ¬ Touches m ⟨k.input.index, 0, y.index, 0⟩ := by
    rintro y hy ((ht | ht | ht) | (ht | ht))
    · exact ha.index_ne h.hrtf hy ht.symm
    · exact ha.index_ne h.amplitude hy ht.symm
    · exact ha.index_ne h.output hy ht.symm
    · exact ha.index_ne h.hrtf k.input_mem ht.symm
    · exact ha.index_ne h.amplitude k.input_mem ht.symm
  refine undisturbed_of_node ha.sound (fun x hx => ha.others x (hnew x hx)) (fun e he => ?_)
    fun x n' k' hx hk' hne => ?_
  · rw [ha.edges]
    refine ⟨fun hin => ?_, fun hin => List.mem_cons_of_mem _ (List.mem_cons_of_mem _ hin)⟩
    rcases List.mem_cons.mp hin with rfl | hin
    · exact absurd he (htouch k.amplitude_mem)
    · rcases List.mem_cons.mp hin with rfl | hin
      · exact absurd he (htouch k.hrtf_mem)
      · exact hin
  · rcases ha.panner_cases hx hk' with ⟨rfl, rfl⟩ | hx
    · exact .inr fun y hy hmem => hnew y hmem (List.mem_cons_of_mem x hy)
    · exact .inl ⟨n', k', hx, hk', rfl⟩

/-! ## Blocks -/

theorem Arranged.pullStep (h : Arranged M m g nM nI nO nH nA) (hstep : PullStep g g') :
    Undisturbed M m g g' := by
  cases hstep with
  | played hw => exact undisturbed_of_within h.sound hw
  | arranged i n q hn hk happly =>
    have hnode := node_handleAt.mpr hn
    by_cases hmem : g.handleAt i ∈ m.inside
    · -- the amplitude panner has the layout of its map already
      have hA : n.layout = mapLayout n.properties := by
        have hkind : n.kind.type = .amplitudePanner := by rw [hk]; rfl
        rcases mem_inside.mp hmem with hx | hx | hx | hx
        · rw [hx, h.input] at hnode
          cases hnode
          rw [h.inputType] at hkind
          cases hkind
        · rw [hx, h.output] at hnode
          cases hnode
          rw [h.outputType] at hkind
          cases hkind
        · rw [hx, h.hrtf] at hnode
          cases hnode
          rw [h.hrtfType] at hkind
          cases hkind
        · rw [hx, h.amplitude] at hnode
          cases hnode
          exact h.amplitudeLayout
      obtain ⟨-, -, rfl⟩ := (applyLayoutAt_eq_ok h.sound.wellFormed hn).mp happly
      refine undisturbed_of_within h.sound (within_modifyAt .refl fun n' hn' => ?_)
      rw [hn] at hn'
      cases hn'
      rw [rearrange, if_pos hA]
      exact ⟨⟨⟨rfl, rfl, rfl⟩, rfl, rfl⟩, NodeKind.type_layoutApplied _,
        fun k hkind => NodeKind.layoutApplied_eq_multipanner.mpr hkind, rfl⟩
    · exact h.applyLayout hmem (applyLayout_handleAt hn happly)

theorem Kept.pulled (h : Kept M m g) (hp : Pulled g g') : Kept M m g' := by
  induction hp with
  | refl => exact h
  | tail _ hstep ih =>
    obtain ⟨strategy, nM, nI, nO, nH, nA, h⟩ := ih
    exact h.kept (h.pullStep hstep)

theorem Kept.pull (h : Kept M m g) {id : NodeId} (hp : g.pull id = .ok g') : Kept M m g' := by
  obtain ⟨strategy, nM, nI, nO, nH, nA, h⟩ := h
  obtain ⟨root, ⟨n, hn⟩, hroot, hpulled⟩ := pull_eq_ok hp
  rw [h.sound.nested.sourceSide hn] at hroot
  cases hroot
  obtain ⟨n', hn'⟩ := h.sound.nested.exists_sourceEnd hn
  refine Kept.pulled (h.kept ?_) hpulled
  exact undisturbed_of_edges (h.sound.scheduleFor hn') (node_scheduleFor g _) fun e _ => by
    rw [edges_scheduleFor]

/-! ## Stability -/

/-- What may be done while a multipanner is tended: its interior is spared, and nobody observes it or
takes it away.  Nodes inside are private, so that nobody can take those away. -/
def spares (M : NodeId) (m : Multipanner) : Policy := fun id use =>
  (id = M → use ≠ .observe ∧ use ≠ .remove) ∧ (id ∈ m.inside → use = .remove)

theorem not_mem_of_spares {id : NodeId} {use : Use} (h : spares M m id use = true)
    (huse : use ≠ .remove) : id ∉ m.inside :=
  fun hid => huse ((of_decide_eq_true h).2 hid)

/-- **Being in order is stable under everything that spares the interior.** -/
theorem stable_kept (M : NodeId) (m : Multipanner) :
    Stable (spares M m) (fun x => x ∉ M :: m.inside) (Kept M m) (fun _ => True) where
  halts _ _ := trivial
  halted _ _ _ _ _ := trivial
  spared id use hfree := by
    obtain ⟨hne, hnot⟩ := not_or.mp (mt List.mem_cons.mpr hfree)
    exact decide_eq_true ⟨fun hid => absurd hid hne, fun hid => absurd hid hnot⟩
  observed id h := by
    refine fun hmem => (List.mem_cons.mp hmem).elim (fun hid => ?_) (not_mem_of_spares h nofun)
    exact ((of_decide_eq_true h).1 hid).1 rfl
  remapped id h :=
    decide_eq_true ⟨fun _ => ⟨nofun, nofun⟩, fun hid => absurd hid (not_mem_of_spares h nofun)⟩
  books g rings faults h := h.pulled (.single (pullStep_books g g.blocks faults rings))
  associate g k l hk := fun ⟨_, _, _, _, _, _, h⟩ => h.kept (h.associate hk l)
  fresh g g' k l id := fun ⟨_, _, _, _, _, _, h⟩ hrun => h.associated hrun
  assemble g data := fun ⟨strategy, nM, nI, nO, nH, nA, h⟩ => by
    cases hq : HrtfPanner.new data with
    | error a =>
      rw [run_assemble_of_error hq]
      exact h.kept (undisturbed_refl h.sound)
    | ok q =>
      obtain ⟨id, k, g', hrun, ha⟩ := run_assemble h.sound hq
      rw [hrun]
      exact h.kept (h.assembled ha)
  assembled g g' data id := fun ⟨strategy, nM, nI, nO, nH, nA, h⟩ hrun => by
    cases hq : HrtfPanner.new data with
    | error a =>
      rw [run_assemble_of_error hq] at hrun
      cases hrun
    | ok q =>
      obtain ⟨id', k, g₁, hrun₁, ha⟩ := run_assemble h.sound hq
      rw [hrun] at hrun₁
      cases hrun₁
      exact h.not_mem (ha.fresh id List.mem_cons_self)
  property g id p f hfree := fun ⟨_, _, _, _, _, _, h⟩ => h.kept (h.modifyProperty hfree p f)
  remove g g' id hid := fun ⟨_, _, _, _, _, _, h⟩ hr => by
    exact h.kept (h.remove (fun hM => ((of_decide_eq_true hid).1 hM).2 rfl) hr)
  connect g g' a o b k := fun ⟨_, _, _, _, _, _, h⟩ hc => by
    obtain ⟨⟨na, hna, ha⟩, ⟨nb, hnb, hb⟩, hc⟩ := connect_eq_ok.mp hc
    exact h.kept (h.connectAt hna hnb (h.not_mem_of_public hna ha) (h.not_mem_of_public hnb hb) hc)
  disconnect g g' a o := fun ⟨_, _, _, _, _, _, h⟩ hc => by
    obtain ⟨⟨na, hna, ha⟩, hc⟩ := disconnect_eq_ok.mp hc
    exact h.kept (h.disconnectAt hna (h.not_mem_of_public hna ha) hc)
  connectInterior g g' a o b k ha hb := fun ⟨_, _, _, _, _, _, h⟩ hc => by
    obtain ⟨⟨na, hna⟩, ⟨nb, hnb⟩, hc⟩ := connectInterior_eq_ok.mp hc
    exact h.kept (h.connectAt hna hnb (mt (List.mem_cons_of_mem M) ha)
      (mt (List.mem_cons_of_mem M) hb) hc)
  disconnectInterior g g' a o ha := fun ⟨_, _, _, _, _, _, h⟩ hc => by
    obtain ⟨⟨na, hna⟩, hc⟩ := disconnectInterior_eq_ok.mp hc
    exact h.kept (h.disconnectAt hna (mt (List.mem_cons_of_mem M) ha) hc)
  applyLayout g g' id l hid := fun ⟨_, _, _, _, _, _, h⟩ happly =>
    h.kept (h.applyLayout (not_mem_of_spares hid nofun) happly)
  recomputeMap g id hid := fun ⟨_, _, _, _, _, _, h⟩ =>
    h.kept (h.recomputeMap (not_mem_of_spares hid nofun))
  markRecompute g g' id := fun ⟨_, _, _, _, _, _, h⟩ hm =>
    h.kept (undisturbed_of_within h.sound (within_markRecompute hm))
  strategy g id k strategy hid := fun ⟨_, _, _, _, _, _, h⟩ hfind =>
    h.kept (h.strategyOf hid hfind strategy)
  family g id k hid := fun ⟨_, _, _, _, _, _, h⟩ hfind => by
    obtain ⟨n, hn, hk⟩ := find_eq_ok.mp hfind
    have hapart := h.apart id n k hn hk fun hM => hid (hM ▸ List.mem_cons_self)
    exact ⟨hapart _ k.hrtf_mem, hapart _ k.amplitude_mem, hapart _ k.output_mem⟩
  pull g g' id h hp := h.pull hp

end Multipanner

end SpatialAudio
