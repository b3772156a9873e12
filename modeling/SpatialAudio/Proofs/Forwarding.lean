import SpatialAudio.Proofs.Upkeep

/-!
# Proofs/Forwarding — setting a property of a multipanner

A multipanner that nobody else observes passes its direction on to both panners and its gain to the
output stage (`Arranged.run_setToPanners`, `Arranged.run_setToOutput`).  A strategy is refused before
anything has changed unless every connection that leaves the output stage accepts its width
(`Arranged.run_setStrategy_refused`), and otherwise it is put into effect
(`Arranged.run_setStrategy`).  In every case the multipanner is in order afterwards.
-/

namespace SpatialAudio

open SpatialAudio.Graph

/-- Whether an observer is a script. -/
def Observer.scripted : Observer → Bool
  | script _ => true
  | _ => false

/-- Observers that are no scripts react as always. -/
def Faithful (run : Event → Observer → Action Unit) (set : Setter) : Prop :=
  ∀ event o, o.scripted = false → run event o = react set event o

theorem faithful_react (set : Setter) : Faithful (react set) set := fun _ _ _ => rfl

theorem faithful_reactUnder (P : Policy) (set : Setter) : Faithful (reactUnder P set) set := by
  intro event o ho
  cases o with
  | script s => cases ho
  | _ => rfl

/-! ## Ranges and observers -/

/-- Who observes a multipanner. -/
theorem Multipanner.observed_cases {p : PropertyId} {y : Property}
    (h : Multipanner.observed.get? p = some y) :
    (p ∈ Multipanner.forwardedToPanners ∧ y.before = [] ∧ y.after = [.forwardToPanners]) ∨
      (p ∈ Multipanner.forwardedToOutput ∧ y.before = [] ∧ y.after = [.forwardToOutput]) ∨
      (p = .strategy ∧ y.before = [.admitStrategy] ∧ y.after = [.applyStrategy]) := by
  have hobservers : ∀ {before after : List Observer},
      (Multipanner.observed.get? p).map (fun y => (y.before, y.after)) = some (before, after) →
      y.before = before ∧ y.after = after := by
    intro before after hmap
    rw [h] at hmap
    exact Prod.ext_iff.mp (Option.some.inj hmap)
  cases p with
  | azimuth => exact .inl ⟨by decide, hobservers rfl⟩
  | elevation => exact .inl ⟨by decide, hobservers rfl⟩
  | shouldCrossfade => exact .inl ⟨by decide, hobservers rfl⟩
  | suspended => exact .inr (.inl ⟨by decide, hobservers rfl⟩)
  | mul => exact .inr (.inl ⟨by decide, hobservers rfl⟩)
  | add => exact .inr (.inl ⟨by decide, hobservers rfl⟩)
  | strategy => exact .inr (.inr ⟨rfl, hobservers rfl⟩)
  | _ => cases h

/-- Both panners take the directions that a multipanner takes, and few observe them. -/
theorem Multipanner.range_panners {p : PropertyId} (hp : p ∈ Multipanner.forwardedToPanners) :
    (∃ z, hrtfProperties.get? p = some z ∧
      (Multipanner.observed.get? p).map Property.range = some z.range ∧ z.before = [] ∧
      (z.after = [] ∨ z.after = [.markRecompute])) ∧
    ∃ z, AmplitudePanner.properties.get? p = some z ∧
      (Multipanner.observed.get? p).map Property.range = some z.range ∧ z.before = [] ∧
      z.after = [] := by
  simp only [Multipanner.forwardedToPanners, List.mem_cons, List.not_mem_nil, or_false] at hp
  rcases hp with rfl | rfl | rfl
  · exact ⟨⟨_, rfl, rfl, rfl, .inr rfl⟩, _, rfl, rfl, rfl, rfl⟩
  · exact ⟨⟨_, rfl, rfl, rfl, .inr rfl⟩, _, rfl, rfl, rfl, rfl⟩
  · exact ⟨⟨_, rfl, rfl, rfl, .inl rfl⟩, _, rfl, rfl, rfl, rfl⟩

/-- The output stage takes the gains that a multipanner takes. -/
theorem Multipanner.range_output {p : PropertyId} (hp : p ∈ Multipanner.forwardedToOutput) :
    ∃ z, Properties.standard.get? p = some z ∧
      (Multipanner.observed.get? p).map Property.range = some z.range ∧ z.before = [] ∧
      z.after = [] := by
  simp only [Multipanner.forwardedToOutput, List.mem_cons, List.not_mem_nil, or_false] at hp
  rcases hp with rfl | rfl | rfl
  · exact ⟨_, rfl, rfl, rfl, rfl⟩
  · exact ⟨_, rfl, rfl, rfl, rfl⟩
  · exact ⟨_, rfl, rfl, rfl, rfl⟩

/-- A value that a multipanner takes is taken by a node of the same range. -/
theorem Multipanner.exists_valid {ps base : Properties} {p : PropertyId} {x z : Property}
    {v : PropertyValue} (hframe : ps.frame = base.frame) (hz : base.get? p = some z)
    (hrange : (Multipanner.observed.get? p).map Property.range = some z.range) {qs : Properties}
    (hobserved : qs.frame = Multipanner.observed.frame) (hx : qs.get? p = some x)
    (hv : x.validate p v = .ok ()) :
    ∃ x', ps.get? p = some x' ∧ x'.frame = z.frame ∧ x'.validate p v = .ok () := by
  obtain ⟨y, hy, hxy⟩ := Properties.exists_of_frame hobserved.symm hx
  rw [hy] at hrange
  obtain ⟨x', hx', hxz⟩ := Properties.exists_of_frame hframe hz
  refine ⟨x', hx', hxz, Property.validate_congr ?_ hv⟩
  rw [Property.range_of_frame hxz, ← Option.some.inj hrange, Property.range_of_frame hxy]

/-! ## Nodes inside -/

/-- Setting the direction of an HRTF panner makes it look up its responses again. -/
theorem run_setHrtf {run : Event → Observer → Action Unit} {set : Setter}
    (hrun : Faithful run set) {s : Session} {id : NodeId} {n : Node} {p : PropertyId} {x : Property}
    {v : PropertyValue} (hs : s.graph.Sound) (hn : s.graph.node id = .ok n)
    (htype : n.kind.type = .hrtfPanner) (hnd : n.properties.keys.Nodup)
    (hx : n.properties.get? p = some x) (hbefore : x.before = [])
    (hafter : x.after = [] ∨ x.after = [.markRecompute]) (hv : x.validate p v = .ok ()) :
    ∃ g' k, (setWith run id p v).run s = (.ok (), { s with graph := g' }) ∧ k.type = .hrtfPanner ∧
      s.graph.Wrote id { n with kind := k, properties := n.properties.modify p (·.store v) } g' := by
  have hw : s.graph.Wrote id { n with properties := n.properties.modify p (·.storing v) }
      (s.graph.underWay id p v) := hs.wrote_modifyProperty hn p _
  have hnotify : (notify run .before ⟨id, p, some v⟩).run s = (.ok (), s) :=
    run_notify_nil hn hnd hx .before hbefore (some v)
  rcases hafter with hafter | hafter
  · refine ⟨_, n.kind, run_setWith hn hx hv hnotify
      (t := { s with graph := s.graph.underWay id p v }) ?_, htype,
      hw.trans (hw.sound.wrote_restored hw.self hnd hx)⟩
    rw [hafter]
    rfl
  · obtain ⟨q, hq⟩ : ∃ q, n.kind = .hrtfPanner q := by
      cases hk : n.kind with
      | hrtfPanner q => exact ⟨q, rfl⟩
      | _ => rw [hk] at htype; cases htype
    have hw₂ := hw.sound.wrote (f := fun n => { n with kind := .hrtfPanner q.markRecompute })
      hw.self ⟨⟨rfl, rfl, rfl⟩, rfl, rfl⟩
    have hmark : (run ⟨id, p, none⟩ .markRecompute).run { s with graph := s.graph.underWay id p v }
        = (.ok (), { s with graph := (s.graph.underWay id p v).modifyAt id.index fun n =>
            { n with kind := .hrtfPanner q.markRecompute } }) := by
      have hok : (s.graph.underWay id p v).markRecompute id
          = .ok ((s.graph.underWay id p v).modifyAt id.index fun n =>
            { n with kind := .hrtfPanner q.markRecompute }) := by
        rw [Graph.markRecompute, hw.self]
        change (n.kind.asHrtfPanner >>= _) = _
        rw [hq]
        rfl
      rw [hrun _ .markRecompute rfl, react]
      exact run_change_ok hok
    generalize (s.graph.underWay id p v).modifyAt id.index (fun n =>
      { n with kind := .hrtfPanner q.markRecompute }) = g₂ at hw₂ hmark
    refine ⟨_, .hrtfPanner q.markRecompute, run_setWith hn hx hv hnotify
      (t := { s with graph := g₂ }) ?_, rfl,
      (hw.trans hw₂).trans (hw₂.sound.wrote_restored hw₂.self hnd hx)⟩
    rw [hafter, forM_singleton]
    exact hmark

theorem keys_hrtf {ps : Properties} (h : ps.frame = hrtfProperties.frame) : ps.keys.Nodup := by
  rw [Properties.keys_eq_of_frame h]
  decide

theorem keys_standard {ps : Properties} (h : ps.frame = Properties.standard.frame) :
    ps.keys.Nodup := by
  rw [Properties.keys_eq_of_frame h]
  decide

namespace Multipanner

theorem keys_observed {ps : Properties} (h : ps.frame = observed.frame) : ps.keys.Nodup := by
  rw [Properties.keys_eq_of_frame h]
  decide

variable {M : NodeId} {m : Multipanner} {nM nI nO nH nA : Node} {s : Session} {p : PropertyId}
  {x : Property} {v : PropertyValue} {run : Event → Observer → Action Unit} {set : Setter}

/-! ## Passing values on -/

/-- The value that observers of the phase after see. -/
theorem Arranged.value_underWay (h : Arranged M m s.graph nM nI nO nH nA)
    (hx : nM.properties.get? p = some x) (v : PropertyValue) :
    (s.graph.underWay M p v).value M p = .ok v := by
  have hw := h.sound.wrote_modifyProperty h.panner p (·.storing v)
  have hprop : (s.graph.underWay M p v).property M p = .ok (x.storing v) := by
    refine property_eq_ok.mpr ⟨_, hw.self, ?_⟩
    rw [Properties.get?_modify, if_pos rfl, hx]
    rfl
  rw [value, hprop]
  rfl

theorem Arranged.find_underWay (h : Arranged M m s.graph nM nI nO nH nA) (p : PropertyId)
    (v : PropertyValue) : find (s.graph.underWay M p v) M = .ok m :=
  find_eq_ok.mpr ⟨_, (h.sound.wrote_modifyProperty h.panner p (·.storing v)).self, h.kind⟩

/-- An observer that passes a value on reads it, and finds the nodes inside. -/
theorem Arranged.run_forward (h : Arranged M m s.graph nM nI nO nH nA)
    (hx : nM.properties.get? p = some x) (v : PropertyValue)
    (next : PropertyValue → Multipanner → Action Unit) :
    (do
        let value ← Action.read fun g => g.value M p
        let m ← Action.read fun g => find g M
        next value m).run { s with graph := s.graph.underWay M p v }
      = (next v m).run { s with graph := s.graph.underWay M p v } := by
  rw [run_bind_ok (run_read_ok (h.value_underWay hx v)),
    run_bind_ok (run_read_ok (h.find_underWay p v))]

/-- Storing one value on two nodes keeps their values equal. -/
theorem value?_store_congr {ps qs : Properties} {q : PropertyId} (h : ps.value? q = qs.value? q)
    (p : PropertyId) (v : PropertyValue) :
    (ps.modify p (·.store v)).value? q = (qs.modify p (·.store v)).value? q := by
  rw [Properties.value?_store, Properties.value?_store, h]

theorem value?_store_of_ne {ps : Properties} {q : PropertyId} (h : p ≠ q) (v : PropertyValue) :
    (ps.modify p (·.store v)).value? q = ps.value? q := by
  rw [Properties.value?_store, if_neg h]

theorem kin_store (n : Node) (p : PropertyId) (v : PropertyValue) :
    n.Kin { n with properties := n.properties.modify p (·.store v) } :=
  ⟨rfl, rfl, rfl, fun _ h => h, Properties.frame_store _ _ _⟩

/-- **A direction is passed on to both panners.** -/
theorem Arranged.run_setToPanners (h : Arranged M m s.graph nM nI nO nH nA)
    {run' : Event → Observer → Action Unit} (hrun : Faithful run (setWith run'))
    (hrun' : Faithful run' set) (hp : p ∈ forwardedToPanners) (hx : nM.properties.get? p = some x)
    (hbefore : x.before = []) (hafter : x.after = [.forwardToPanners])
    (hv : x.validate p v = .ok ()) :
    ∃ g', (setWith run M p v).run s = (.ok (), { s with graph := g' }) ∧
      ∃ nM' nH' nA', Arranged M m g' nM' nI nO nH' nA' := by
  obtain ⟨hMin, hnd⟩ := List.nodup_cons.mp h.nodup
  obtain ⟨hMI, hMO, hMH, hMA⟩ := notMem_inside.mp hMin
  obtain ⟨⟨-, hIH, hIA⟩, ⟨hOH, hOA⟩, hHA⟩ := nodup_inside.mp hnd
  obtain ⟨⟨zH, hzH, hrangeH, hbH, haH⟩, zA, hzA, hrangeA, hbA, haA⟩ := range_panners hp
  obtain ⟨xH, hxH, hframeH, hvH⟩ := exists_valid h.hrtfFrame hzH hrangeH h.frame hx hv
  obtain ⟨xA, hxA, hframeA, hvA⟩ := exists_valid h.amplitudeFrame hzA hrangeA h.frame hx hv
  -- the value is stored, then set on one panner after the other
  have hw₁ : s.graph.Wrote M { nM with properties := nM.properties.modify p (·.storing v) }
      (s.graph.underWay M p v) := h.sound.wrote_modifyProperty h.panner p _
  obtain ⟨g₂, k, hset₂, hk, hw₂⟩ := run_setHrtf hrun'
    (s := { s with graph := s.graph.underWay M p v }) hw₁.sound
    (by rw [hw₁.other (Ne.symm hMH), h.hrtf]) h.hrtfType (keys_hrtf h.hrtfFrame) hxH
    ((Property.observers_of_frame hframeH .before).trans hbH)
    (by rw [show xH.after = zH.after from Property.observers_of_frame hframeH .after]; exact haH) hvH
  have hA₂ : g₂.node m.amplitude = .ok nA := by
    rw [hw₂.other (Ne.symm hHA), hw₁.other (Ne.symm hMA), h.amplitude]
  have hset₃ : (setWith run' m.amplitude p v).run { s with graph := g₂ } = _ :=
    run_setWith_plain hA₂ (keys_amplitude h.amplitudeFrame) hxA
      ((Property.observers_of_frame hframeA .before).trans hbA)
      ((Property.observers_of_frame hframeA .after).trans haA) hvA
  have hw₃ := hw₂.sound.wrote_modifyProperty hA₂ p (·.store v)
  generalize g₂.modifyProperty m.amplitude p (·.store v) = g₃ at hset₃ hw₃
  have hM₃ := (hw₃.other hMA).trans ((hw₂.other hMH).trans hw₁.self)
  have hw₄ := hw₃.sound.wrote_restored (k := nM.kind) hM₃ (keys_observed h.frame) hx
  refine ⟨g₃.restoreObservers .after M p x.after, run_setWith h.panner hx hv
    (run_notify_nil h.panner (keys_observed h.frame) hx .before hbefore _)
    (t := { s with graph := g₃ }) ?_,
    { nM with properties := nM.properties.modify p (·.store v) },
    { nH with kind := k, properties := nH.properties.modify p (·.store v) },
    { nA with properties := nA.properties.modify p (·.store v) }, ?_⟩
  · rw [hafter, forM_singleton, hrun _ .forwardToPanners rfl, react]
    exact (h.run_forward hx v _).trans ((run_bind_ok hset₂).trans hset₃)
  · have hedges := hw₄.edges.trans (hw₃.edges.trans (hw₂.edges.trans hw₁.edges))
    have hother : ∀ {y}, y ≠ M → y ≠ m.hrtf → y ≠ m.amplitude →
        (g₃.restoreObservers .after M p x.after).node y = s.graph.node y := fun hyM hyH hyA => by
      rw [hw₄.other hyM, hw₃.other hyA, hw₂.other hyH, hw₁.other hyM]
    have hne : ∀ {q}, p = q → q ∉ AmplitudePanner.mapProperties ∧ q ≠ .strategy ∧
        q ∉ forwardedToOutput := by
      rintro q rfl
      exact (by decide : ∀ q ∈ forwardedToPanners, q ∉ AmplitudePanner.mapProperties ∧
        q ≠ .strategy ∧ q ∉ forwardedToOutput) p hp
    refine h.renew hw₄.sound hw₄.self (kin_store nM p v) ⟨?_, .refl _, rfl⟩ ⟨?_, .refl _, rfl⟩
      ⟨?_, ⟨rfl, rfl, hk.trans h.hrtfType.symm, ?_, Properties.frame_store _ _ _⟩, rfl⟩
      ⟨?_, kin_store nA p v, rfl⟩ (by rw [hedges]; exact h.wired) (fun q hq => ?_) ?_
      (fun q hq => value?_store_congr (h.toHrtf q hq) p v)
      (fun q hq => value?_store_congr (h.toAmplitude q hq) p v) (fun q hq => ?_)
      fun y n k hy hkind hmem => ?_
    · rw [hother (Ne.symm hMI) hIH hIA, h.input]
    · rw [hother (Ne.symm hMO) hOH hOA, h.output]
    · rw [hw₄.other (Ne.symm hMH), hw₃.other hHA, hw₂.self]
    · exact fun k' hk' => absurd hk' (h.kind_ne m.hrtf_mem h.hrtf k')
    · rw [hw₄.other (Ne.symm hMA), hw₃.self]
    · exact value?_store_of_ne (fun hpq => (hne hpq).1 hq) v
    · exact value?_store_of_ne (fun hpq => (hne hpq).2.1 rfl) v
    · rw [h.toOutput q hq]
      exact (value?_store_of_ne (fun hpq => (hne hpq).2.2 hq) v).symm
    · obtain ⟨hyM, hyin⟩ := not_or.mp (mt List.mem_cons.mpr hmem)
      obtain ⟨-, -, hyH, hyA⟩ := notMem_inside.mp hyin
      rw [hother hyM hyH hyA] at hy
      exact h.apart y n k hy hkind hyM

/-- **A gain is passed on to the output stage.** -/
theorem Arranged.run_setToOutput (h : Arranged M m s.graph nM nI nO nH nA)
    {run' : Event → Observer → Action Unit} (hrun : Faithful run (setWith run'))
    (hp : p ∈ forwardedToOutput) (hx : nM.properties.get? p = some x) (hbefore : x.before = [])
    (hafter : x.after = [.forwardToOutput]) (hv : x.validate p v = .ok ()) :
    ∃ g', (setWith run M p v).run s = (.ok (), { s with graph := g' }) ∧
      ∃ nM' nO', Arranged M m g' nM' nI nO' nH nA := by
  obtain ⟨hMin, hnd⟩ := List.nodup_cons.mp h.nodup
  obtain ⟨hMI, hMO, hMH, hMA⟩ := notMem_inside.mp hMin
  obtain ⟨⟨hIO, -, -⟩, ⟨hOH, hOA⟩, -⟩ := nodup_inside.mp hnd
  obtain ⟨z, hz, hrange, hb, ha⟩ := range_output hp
  obtain ⟨xO, hxO, hframe, hvO⟩ := exists_valid h.outputFrame hz hrange h.frame hx hv
  have hw₁ : s.graph.Wrote M { nM with properties := nM.properties.modify p (·.storing v) }
      (s.graph.underWay M p v) := h.sound.wrote_modifyProperty h.panner p _
  have hO₁ : (s.graph.underWay M p v).node m.output = .ok nO := by
    rw [hw₁.other (Ne.symm hMO), h.output]
  have hset₂ : (setWith run' m.output p v).run { s with graph := s.graph.underWay M p v } = _ :=
    run_setWith_plain hO₁ (keys_standard h.outputFrame) hxO
      ((Property.observers_of_frame hframe .before).trans hb)
      ((Property.observers_of_frame hframe .after).trans ha) hvO
  have hw₂ := hw₁.sound.wrote_modifyProperty hO₁ p (·.store v)
  generalize (s.graph.underWay M p v).modifyProperty m.output p (·.store v) = g₂ at hset₂ hw₂
  have hw₃ := hw₂.sound.wrote_restored (k := nM.kind) ((hw₂.other hMO).trans hw₁.self)
    (keys_observed h.frame) hx
  refine ⟨g₂.restoreObservers .after M p x.after, run_setWith h.panner hx hv
    (run_notify_nil h.panner (keys_observed h.frame) hx .before hbefore _)
    (t := { s with graph := g₂ }) ?_,
    { nM with properties := nM.properties.modify p (·.store v) },
    { nO with properties := nO.properties.modify p (·.store v) }, ?_⟩
  · rw [hafter, forM_singleton, hrun _ .forwardToOutput rfl, react]
    exact (h.run_forward hx v _).trans hset₂
  · have hedges := hw₃.edges.trans (hw₂.edges.trans hw₁.edges)
    have hother : ∀ {y}, y ≠ M → y ≠ m.output →
        (g₂.restoreObservers .after M p x.after).node y = s.graph.node y := fun hyM hyO => by
      rw [hw₃.other hyM, hw₂.other hyO, hw₁.other hyM]
    have hne : ∀ {q}, p = q → q ≠ .strategy ∧ q ∉ forwardedToPanners := by
      rintro q rfl
      exact (by decide : ∀ q ∈ forwardedToOutput, q ≠ .strategy ∧ q ∉ forwardedToPanners) p hp
    refine h.renew hw₃.sound hw₃.self (kin_store nM p v) ⟨?_, .refl _, rfl⟩
      ⟨?_, kin_store nO p v, rfl⟩ ⟨?_, .refl _, rfl⟩ ⟨?_, .refl _, rfl⟩
      (by rw [hedges]; exact h.wired) (fun q _ => rfl) ?_ (fun q hq => ?_) (fun q hq => ?_)
      (fun q hq => value?_store_congr (h.toOutput q hq) p v) fun y n k hy hkind hmem => ?_
    · rw [hother (Ne.symm hMI) hIO, h.input]
    · rw [hw₃.other (Ne.symm hMO), hw₂.self]
    · rw [hother (Ne.symm hMH) (Ne.symm hOH), h.hrtf]
    · rw [hother (Ne.symm hMA) (Ne.symm hOA), h.amplitude]
    · exact value?_store_of_ne (fun hpq => (hne hpq).1 rfl) v
    · rw [h.toHrtf q hq]
      exact (value?_store_of_ne (fun hpq => (hne hpq).2 hq) v).symm
    · rw [h.toAmplitude q hq]
      exact (value?_store_of_ne (fun hpq => (hne hpq).2 hq) v).symm
    · obtain ⟨hyM, hyin⟩ := not_or.mp (mt List.mem_cons.mpr hmem)
      rw [hother hyM (notMem_inside.mp hyin).2.1] at hy
      exact h.apart y n k hy hkind hyM

/-! ## Strategies -/

/-- Every connection that leaves the output stage ends in a slot of a width. -/
def Accepts (m : Multipanner) (g : Graph) (width : Nat) : Prop :=
  ∀ e ∈ g.edges, e.source = m.output.index →
    ∃ r, (g.layoutAt e.target).inputSlots[e.inputSlot]? = some r ∧ r.count = width

theorem Accepts.congr {g g' : Graph} {width : Nat} (he : g'.edges = g.edges)
    (hl : ∀ i, g'.layoutAt i = g.layoutAt i) : Accepts m g' width ↔ Accepts m g width := by
  rw [Accepts, Accepts, he]
  simp only [hl]

theorem Accepts.modifyProperty {g : Graph} {width : Nat} (id : NodeId) (p : PropertyId)
    (f : Property → Property) :
    Accepts m (g.modifyProperty id p f) width ↔ Accepts m g width :=
  Accepts.congr (alike_modifyProperty g id p f).edges
    fun i => (alike_modifyProperty g id p f).layoutAt Node.Alike.toSameShape i

/-- The check before a change of strategy looks at exactly the connections that leave. -/
theorem Inside.checkOutputWidth_eq_ok {g : Graph} (h : Inside M m g nI nO nH nA) {w : Nat}
    (hw : nO.layout = .symmetric w) {width : Nat} :
    g.checkOutputWidth m.output 0 width = .ok () ↔ Accepts m g width := by
  have hindex : g.index m.output = .ok m.output.index := index_eq_ok.mpr ⟨⟨nO, h.output⟩, rfl⟩
  have hside := h.sound.nested.sourceSide h.output
  rw [Node.sourceEnd_of_plain h.interior.2.1] at hside
  have hslot : ∀ e ∈ g.edges, e.source = m.output.index → e.outputSlot = 0 := by
    intro e he hs
    obtain ⟨r, -, hr, -⟩ := h.sound.wellFormed.joins e he
    rw [hs, layoutAt_of_nodeAt? (nodeAt?_of_node h.output), hw] at hr
    have hlt : e.outputSlot < [(⟨0, w⟩ : ChannelRange)].length := (List.getElem?_eq_some_iff.mp hr).1
    simpa using hlt
  have hunfold : g.checkOutputWidth m.output 0 width
      = ((g.outgoing m.output.index).filter fun e => e.outputSlot = 0).forM (fun e => do
        let input ← slotRange (g.layoutAt e.target).inputSlots e.inputSlot
        checkWidth width input.count) := by
    rw [checkOutputWidth, hindex]
    change (g.sourceSide m.output.index >>= _) = _
    rw [hside]
    rfl
  rw [hunfold, forM_eq_ok]
  constructor
  · intro hall e he hs
    have hmem : e ∈ (g.outgoing m.output.index).filter fun e => e.outputSlot = 0 :=
      List.mem_filter.mpr ⟨List.mem_filter.mpr ⟨he, decide_eq_true hs⟩,
        decide_eq_true (hslot e he hs)⟩
    obtain ⟨r, hr, hwidth⟩ := bind_eq_ok.mp (hall e hmem)
    exact ⟨r, slotRange_eq_ok.mp hr, (checkWidth_eq_ok.mp hwidth).symm⟩
  · intro hacc e he
    obtain ⟨he, hs⟩ := List.mem_filter.mp (List.mem_filter.mp he).1
    obtain ⟨r, hr, hcount⟩ := hacc e he (of_decide_eq_true hs)
    exact bind_eq_ok.mpr ⟨r, slotRange_eq_ok.mpr hr, checkWidth_eq_ok.mpr hcount.symm⟩

theorem Inside.wrote {g g' : Graph} {n : Node} (h : Inside M m g nI nO nH nA)
    (hw : g.Wrote M n g') : Inside M m g' nI nO nH nA := by
  have hM : ∀ x ∈ m.inside, g'.node x = g.node x := fun x hx =>
    hw.other (ne_of_mem_of_not_mem hx (List.nodup_cons.mp h.nodup).1)
  exact ⟨hw.sound, h.nodup, (hM _ m.input_mem).trans h.input,
    (hM _ m.output_mem).trans h.output, (hM _ m.hrtf_mem).trans h.hrtf,
    (hM _ m.amplitude_mem).trans h.amplitude, h.owned, h.inputType, h.outputType,
    h.hrtfType, h.amplitudeType, h.inputLayout, h.hrtfLayout, h.amplitudeLayout, h.outputFrame,
    h.hrtfFrame, h.amplitudeFrame⟩

/-- Nothing leads from the output stage back to the input stage, or there would be a cycle. -/
theorem Wired.not_leads {edges : List Edge} (h : Wired m edges) (ha : Acyclic edges) :
    ¬ Leads edges m.output.index m.input.index := by
  intro hl
  have hactive : Feeds edges m.input.index m.active.index := by
    rcases active_eq m with hact | hact
    · exact ⟨_, h.hrtfWire, rfl, by rw [hact]; rfl⟩
    · exact ⟨_, h.amplitudeWire, rfl, by rw [hact]; rfl⟩
  have hfeed : Feeds edges m.active.index m.output.index := ⟨_, h.feed, rfl, rfl⟩
  exact ha m.output.index (Relation.TransGen.tail' (hl.tail hactive) hfeed)

theorem Strategy.ofInt_toInt (strategy : Strategy) :
    Strategy.ofInt strategy.toInt = .ok strategy := by
  cases strategy <;> rfl

/-- The values that the property of the strategy takes are those of the strategies. -/
theorem validate_strategy (hx : x.range = .int 0 3) :
    x.validate p v = .ok () ↔ ∃ strategy : Strategy, v = .int strategy.toInt := by
  unfold Property.validate
  rw [hx]
  cases v with
  | int k =>
    simp only
    split
    · next hout =>
      refine ⟨nofun, fun ⟨strategy, hk⟩ => ?_⟩
      cases hk
      exact absurd hout (by cases strategy <;> decide)
    · next hin =>
      refine ⟨fun _ => ?_, fun _ => rfl⟩
      obtain rfl | rfl | rfl | rfl : k = 0 ∨ k = 1 ∨ k = 2 ∨ k = 3 := by omega
      · exact ⟨.hrtf, rfl⟩
      · exact ⟨.stereo, rfl⟩
      · exact ⟨.surround51, rfl⟩
      · exact ⟨.surround71, rfl⟩
  | float a => exact ⟨nofun, fun ⟨_, h⟩ => nomatch h⟩
  | floatArray as => exact ⟨nofun, fun ⟨_, h⟩ => nomatch h⟩

/-- The property of the strategy, with its observers. -/
theorem Arranged.exists_strategy {g : Graph} (h : Arranged M m g nM nI nO nH nA) :
    ∃ x, nM.properties.get? .strategy = some x ∧ x.range = .int 0 3 ∧
      x.before = [.admitStrategy] ∧ x.after = [.applyStrategy] := by
  obtain ⟨x, hx, hframe⟩ := Properties.exists_of_frame h.frame (p := .strategy) rfl
  exact ⟨x, hx, Property.range_of_frame hframe, Property.observers_of_frame hframe .before,
    Property.observers_of_frame hframe .after⟩

/-- **The observers of the phase before change nothing**, and agree exactly if the width of the
strategy is accepted. -/
theorem Arranged.run_admit (h : Arranged M m s.graph nM nI nO nH nA) (hrun : Faithful run set)
    (strategy : Strategy) :
    ∃ r : Except Error Unit, (r = .ok () ↔ Accepts m s.graph strategy.channels) ∧
      (notify run .before ⟨M, .strategy, some (.int strategy.toInt)⟩).run s
        = (r.mapError Failure.refused, s) := by
  obtain ⟨x, hx, -, hbefore, -⟩ := h.exists_strategy
  have hw := h.sound.wrote_modifyProperty h.panner .strategy (·.setObservers .before [])
  refine ⟨(s.graph.modifyProperty M .strategy (·.setObservers .before [])).checkOutputWidth m.output 0
    strategy.channels, ?_, ?_⟩
  · rw [(h.toInside.wrote hw).checkOutputWidth_eq_ok h.outputLayout, Accepts.modifyProperty]
  · refine run_notify_of_eq h.panner (keys_observed h.frame) hx .before _ ?_
    rw [show x.observers .before = [.admitStrategy] from hbefore, forM_singleton,
      hrun _ .admitStrategy rfl, react]
    change (Action.read fun g => do
      let strategy ← Strategy.ofInt strategy.toInt
      g.checkOutputWidth (← find g M).output 0 strategy.channels).run _ = _
    rw [Action.read, run_onGraph, run_read, Strategy.ofInt_toInt]
    change (((find _ M >>= fun k => Graph.checkOutputWidth _ k.output 0 strategy.channels)).mapError
      Failure.refused, _) = _
    rw [find_eq_ok.mpr ⟨_, hw.self, h.kind⟩]
    rfl

/-- **A strategy that is none, or whose width is not accepted, is refused, and nothing has
changed.** -/
theorem Arranged.run_setStrategy_refused (h : Arranged M m s.graph nM nI nO nH nA)
    (hrun : Faithful run set)
    (hno : ¬ ∃ strategy : Strategy, v = .int strategy.toInt ∧ Accepts m s.graph strategy.channels) :
    ∃ e, (setWith run M .strategy v).run s = (.error (.refused e), s) := by
  obtain ⟨x, hx, hrange, -, -⟩ := h.exists_strategy
  have hvalid := run_validate h.panner hx v
  rw [setWith]
  cases hv : x.validate .strategy v with
  | error e =>
    rw [hv] at hvalid
    exact ⟨e, run_bind_error hvalid⟩
  | ok u =>
    rw [hv] at hvalid
    obtain ⟨strategy, rfl⟩ := (validate_strategy hrange).mp hv
    obtain ⟨r, hr, hadmit⟩ := h.run_admit hrun strategy
    cases r with
    | ok u => exact absurd ⟨strategy, rfl, hr.mp rfl⟩ hno
    | error e => exact ⟨e, (run_bind_ok hvalid).trans (run_bind_error hadmit)⟩

/-- What follows from a transition, once the multipanner itself is written. -/
theorem Switched.arranged {g g' g'' : Graph} {n nO' nA' : Node} {strategy : Strategy}
    (h : Switched M m g nM nI nO nH nA strategy g' nO' nA') (hw : g'.Wrote M n g'')
    (hkind : n.kind = .multipanner { m with strategy }) (howner : n.owner = none)
    (hends : n.interior = some ⟨m.input, m.output⟩) (hframe : n.properties.frame = observed.frame)
    (hstrategy : n.properties.value? .strategy = some (.int strategy.toInt))
    (htoHrtf : ∀ p ∈ forwardedToPanners, nH.properties.value? p = n.properties.value? p)
    (htoAmplitude : ∀ p ∈ forwardedToPanners, nA.properties.value? p = n.properties.value? p)
    (htoOutput : ∀ p ∈ forwardedToOutput, nO.properties.value? p = n.properties.value? p)
    (hapart : ∀ x n k, g.node x = .ok n → n.kind = .multipanner k → x ≠ M →
      ∀ y ∈ k.inside, y ∉ M :: m.inside) :
    Arranged M { m with strategy } g'' n nI nO' nH nA' := by
  refine ⟨h.inside.wrote hw, by rw [hw.edges]; exact h.wired, ?_, hw.self, hkind, howner, hends,
    hframe, hstrategy, htoHrtf, fun p hp => ?_, fun p hp => ?_, fun x nx k hx hk hne => ?_⟩
  · rw [h.output, rearrange_layout]
  · rw [Properties.value?, h.amplitude p hp]
    exact htoAmplitude p hp
  · rw [h.output, rearrange_properties]
    exact htoOutput p hp
  · by_cases hmem : x ∈ m.inside
    · exact absurd hk ((h.inside.wrote hw).kind_ne hmem hx k)
    · obtain ⟨-, hxO, -, hxA⟩ := notMem_inside.mp hmem
      rw [hw.other hne, h.others x hne hxO hxA] at hx
      exact hapart x nx k hx hk hne

/-- What the observer of the phase after does to a strategy that was admitted. -/
theorem Arranged.run_apply (h : Arranged M m s.graph nM nI nO nH nA) (hrun : Faithful run set)
    (strategy : Strategy) {r : Except Failure Unit} {t : Session}
    (htransition : (transition set M strategy).run
      { s with graph := s.graph.underWay M .strategy (.int strategy.toInt) } = (r, t))
    {x : Property} (hx : nM.properties.get? .strategy = some x) :
    ([Observer.applyStrategy].forM (run ⟨M, .strategy, none⟩)).run
      { s with graph := s.graph.underWay M .strategy (.int strategy.toInt) } = (r, t) := by
  have hint : (s.graph.underWay M .strategy (.int strategy.toInt)).int M .strategy
      = .ok strategy.toInt := by
    rw [Graph.int, h.value_underWay hx]
    rfl
  rw [forM_singleton, hrun _ .applyStrategy rfl, react]
  refine (run_bind_ok (run_read_ok ?_)).trans htransition
  simp only [hint]
  exact Strategy.ofInt_toInt strategy

/-- A strategy whose width is accepted is put into effect, and the output stage is given its width. -/
theorem Arranged.run_setStrategy_output (h : Arranged M m s.graph nM nI nO nH nA)
    (hrun : Faithful run set) {strategy : Strategy} (hset : strategy = .hrtf ∨ Plain set)
    (hacc : Accepts m s.graph strategy.channels) :
    ∃ g', (setWith run M .strategy (.int strategy.toInt)).run s = (.ok (), { s with graph := g' }) ∧
      ∃ nM' nA', Arranged M { m with strategy } g' nM' nI
        (rearrange (.symmetric strategy.channels) nO) nH nA' := by
  obtain ⟨x, hx, hrange, -, hafter⟩ := h.exists_strategy
  obtain ⟨r, hr, hadmit⟩ := h.run_admit hrun strategy
  rw [hr.mpr hacc] at hadmit
  have hv := (validate_strategy (p := .strategy) hrange).mpr ⟨strategy, rfl⟩
  have hw₁ : s.graph.Wrote M
      { nM with properties := nM.properties.modify .strategy (·.storing (.int strategy.toInt)) }
      (s.graph.underWay M .strategy (.int strategy.toInt)) :=
    h.sound.wrote_modifyProperty h.panner .strategy _
  have hin₁ := h.toInside.wrote hw₁
  obtain ⟨g₂, nO', nA', htransition, hswitched⟩ := hin₁.run_transition
    (s := { s with graph := s.graph.underWay M .strategy (.int strategy.toInt) })
    (by rw [hw₁.edges]; exact h.wired.toLoose) hw₁.self h.kind h.outputLayout
    ((Accepts.modifyProperty M .strategy _).mpr hacc)
    (by rw [hw₁.edges]; exact h.wired.not_leads h.sound.acyclic) hset
  have hw₃ := hswitched.inside.sound.wrote_restored
    (k := .multipanner { m with strategy }) hswitched.panner (keys_observed h.frame) hx
  obtain rfl := hswitched.output
  refine ⟨g₂.restoreObservers .after M .strategy x.after,
    run_setWith h.panner hx hv hadmit (t := { s with graph := g₂ }) ?_, _, nA',
    hswitched.arranged hw₃ rfl h.owner h.ends ?_ ?_ (fun p hp => ?_) (fun p hp => ?_)
      (fun p hp => ?_) fun y n k hy hk hne => ?_⟩
  · rw [hafter]
    exact h.run_apply hrun strategy htransition hx
  · exact (Properties.frame_store _ _ _).trans h.frame
  · rw [Properties.value?_store, if_pos rfl, h.strategy]
    rfl
  · rw [h.toHrtf p hp]
    refine (value?_store_of_ne (fun hp' => ?_) _).symm
    exact (by decide : PropertyId.strategy ∉ forwardedToPanners) (hp' ▸ hp)
  · rw [h.toAmplitude p hp]
    refine (value?_store_of_ne (fun hp' => ?_) _).symm
    exact (by decide : PropertyId.strategy ∉ forwardedToPanners) (hp' ▸ hp)
  · rw [h.toOutput p hp]
    refine (value?_store_of_ne (fun hp' => ?_) _).symm
    exact (by decide : PropertyId.strategy ∉ forwardedToOutput) (hp' ▸ hp)
  · rw [hw₁.other hne] at hy
    exact h.apart y n k hy hk hne

/-- **A strategy whose width is accepted is put into effect.** -/
theorem Arranged.run_setStrategy (h : Arranged M m s.graph nM nI nO nH nA) (hrun : Faithful run set)
    {strategy : Strategy} (hset : strategy = .hrtf ∨ Plain set)
    (hacc : Accepts m s.graph strategy.channels) :
    ∃ g', (setWith run M .strategy (.int strategy.toInt)).run s = (.ok (), { s with graph := g' }) ∧
      ∃ nM' nO' nA', Arranged M { m with strategy } g' nM' nI nO' nH nA' := by
  obtain ⟨g', hok, nM', nA', h'⟩ := h.run_setStrategy_output hrun hset hacc
  exact ⟨g', hok, nM', _, nA', h'⟩

/-! ## Without room for nested changes -/

theorem Arranged.run_forward_aborted (h : Arranged M m s.graph nM nI nO nH nA)
    (hrun : Faithful run set) (hset : Aborts set) (hx : nM.properties.get? p = some x)
    (hbefore : x.before = []) (hafter : x.after = [.forwardToPanners] ∨ x.after = [.forwardToOutput])
    (hv : x.validate p v = .ok ()) :
    ∃ a t, (setWith run M p v).run s = (.error (.aborted a), t) := by
  have hnotify : (notify run .before ⟨M, p, some v⟩).run s = (.ok (), s) :=
    run_notify_nil h.panner (keys_observed h.frame) hx .before hbefore (some v)
  rcases hafter with hafter | hafter
  · obtain ⟨a, ha⟩ := hset m.hrtf p v { s with graph := s.graph.underWay M p v }
    refine ⟨a, _, run_setWith h.panner hx hv hnotify
      (t := { s with graph := s.graph.underWay M p v }) ?_⟩
    rw [hafter, forM_singleton, hrun _ .forwardToPanners rfl, react]
    exact (h.run_forward hx v _).trans (run_bind_error ha)
  · obtain ⟨a, ha⟩ := hset m.output p v { s with graph := s.graph.underWay M p v }
    refine ⟨a, _, run_setWith h.panner hx hv hnotify
      (t := { s with graph := s.graph.underWay M p v }) ?_⟩
    rw [hafter, forM_singleton, hrun _ .forwardToOutput rfl, react]
    exact (h.run_forward hx v _).trans ha

theorem Arranged.run_setStrategy_aborted (h : Arranged M m s.graph nM nI nO nH nA)
    (hrun : Faithful run set) (hset : Aborts set) {strategy : Strategy} (hne : strategy ≠ .hrtf)
    (hacc : Accepts m s.graph strategy.channels) :
    ∃ a t, (setWith run M .strategy (.int strategy.toInt)).run s = (.error (.aborted a), t) := by
  obtain ⟨x, hx, hrange, -, hafter⟩ := h.exists_strategy
  obtain ⟨r, hr, hadmit⟩ := h.run_admit hrun strategy
  rw [hr.mpr hacc] at hadmit
  have hv := (validate_strategy (p := .strategy) hrange).mpr ⟨strategy, rfl⟩
  have hw₁ : s.graph.Wrote M
      { nM with properties := nM.properties.modify .strategy (·.storing (.int strategy.toInt)) }
      (s.graph.underWay M .strategy (.int strategy.toInt)) :=
    h.sound.wrote_modifyProperty h.panner .strategy _
  obtain ⟨a, t, htransition⟩ := (h.toInside.wrote hw₁).run_transition_aborted
    (s := { s with graph := s.graph.underWay M .strategy (.int strategy.toInt) })
    (by rw [hw₁.edges]; exact h.wired.toLoose) hw₁.self h.kind hne hset
  refine ⟨a, _, run_setWith h.panner hx hv hadmit (t := t) ?_⟩
  rw [hafter]
  exact h.run_apply hrun strategy htransition hx

/-! ## Whatever is set -/

theorem changeUnder_cases (P : Policy) (depth : Nat) :
    Aborts (changeUnder P depth) ∨ ∃ run set, changeUnder P depth = setWith run ∧ Faithful run set := by
  cases depth with
  | zero => exact .inl fun _ _ _ _ => ⟨.nesting, rfl⟩
  | succ depth => exact .inr ⟨_, _, rfl, faithful_reactUnder P (changeUnder P depth)⟩

/-- **Setting any property of a multipanner keeps it in order**, unless it runs out of room. -/
theorem Arranged.outcome_setWith {strategy : Strategy}
    (h : Arranged M { m with strategy } s.graph nM nI nO nH nA) (hrun : Faithful run set)
    (hset : Aborts set ∨ ∃ run' set', set = setWith run' ∧ Faithful run' set') (p : PropertyId)
    (v : PropertyValue) : Outcome (Kept M m) (fun _ => True) ((setWith run M p v).run s) := by
  have hkept : Kept M m s.graph := ⟨strategy, nM, nI, nO, nH, nA, h⟩
  have haborted : (∃ a t, (setWith run M p v).run s = (.error (.aborted a), t)) →
      Outcome (Kept M m) (fun _ => True) ((setWith run M p v).run s) := by
    rintro ⟨a, t, hr⟩
    rw [hr]
    trivial
  cases hx : nM.properties.get? p with
  | none =>
    cases hproperty : s.graph.property M p with
    | ok x =>
      obtain ⟨n, hn, hsome⟩ := property_eq_ok.mp hproperty
      cases h.panner.symm.trans hn
      cases hx.symm.trans hsome
    | error e =>
      have hread : (do (← s.graph.property M p).validate p v) = .error e := by
        rw [hproperty]
        rfl
      rw [setWith, run_bind_error (run_read_error hread)]
      exact hkept
  | some x =>
    cases hv : x.validate p v with
    | error e =>
      have hvalid := run_validate h.panner hx v
      rw [hv] at hvalid
      rw [setWith, run_bind_error hvalid]
      exact hkept
    | ok u =>
      obtain ⟨y, hy, hframe⟩ := Properties.exists_of_frame h.frame.symm hx
      have hbefore : x.before = y.before := (Property.observers_of_frame hframe .before).symm
      have hafter : x.after = y.after := (Property.observers_of_frame hframe .after).symm
      rcases observed_cases hy with ⟨hp, hb, ha⟩ | ⟨hp, hb, ha⟩ | ⟨rfl, -, -⟩
      · rcases hset with hset | ⟨run', set', rfl, hrun'⟩
        · exact haborted (h.run_forward_aborted hrun hset hx (hbefore.trans hb)
            (.inl (hafter.trans ha)) hv)
        · obtain ⟨g', hr, nM', nH', nA', h'⟩ := h.run_setToPanners hrun hrun' hp hx
            (hbefore.trans hb) (hafter.trans ha) hv
          rw [hr]
          exact ⟨strategy, nM', nI, nO, nH', nA', h'⟩
      · rcases hset with hset | ⟨run', set', rfl, -⟩
        · exact haborted (h.run_forward_aborted hrun hset hx (hbefore.trans hb)
            (.inr (hafter.trans ha)) hv)
        · obtain ⟨g', hr, nM', nO', h'⟩ := h.run_setToOutput hrun hp hx (hbefore.trans hb)
            (hafter.trans ha) hv
          rw [hr]
          exact ⟨strategy, nM', nI, nO', nH, nA, h'⟩
      · by_cases hadmitted : ∃ next : Strategy, v = .int next.toInt ∧
            Accepts { m with strategy } s.graph next.channels
        · obtain ⟨next, rfl, hacc⟩ := hadmitted
          by_cases hroom : next = .hrtf ∨ Plain set
          · obtain ⟨g', hr, nM', nO', nA', h'⟩ := h.run_setStrategy hrun hroom hacc
            rw [hr]
            exact ⟨next, nM', nI, nO', nH, nA', h'⟩
          · obtain ⟨hne, hnot⟩ := not_or.mp hroom
            rcases hset with hset | ⟨run', set', rfl, -⟩
            · exact haborted (h.run_setStrategy_aborted hrun hset hne hacc)
            · exact (hnot (plain_setWith run')).elim
        · obtain ⟨e, hr⟩ := h.run_setStrategy_refused hrun hadmitted
          rw [hr]
          exact hkept

/-- Setting a property of the multipanner, however deep it is nested. -/
theorem special_kept (M : NodeId) (m : Multipanner) :
    Stable.Special (spares M m) (fun x => x ∉ M :: m.inside) (Kept M m) (fun _ => True) := by
  intro depth id p v hid hfree s hs
  have hM : id = M := (List.mem_cons.mp (not_not.mp hfree)).resolve_right
    (not_mem_of_spares hid nofun)
  subst hM
  cases depth with
  | zero => exact trivial
  | succ depth =>
    obtain ⟨strategy, nM, nI, nO, nH, nA, h⟩ := hs
    exact h.outcome_setWith (faithful_reactUnder _ _) (changeUnder_cases _ depth) p v

end Multipanner

end SpatialAudio
