import SpatialAudio.Proofs.Forwarding

/-!
# Proofs/Tending — a multipanner throughout a session

A multipanner is in order as soon as it is made (`run_create`).  From then on it is **tended** as
long as commands and scripts spare its interior (`Tended`), and it is in order between all steps
(`Tended.kept`): its state, its wiring, its width and the values it passes on are those of its
strategy.  Its strategy is changed as a whole or not at all (`inOrder_of_tended`).
-/

namespace SpatialAudio

open SpatialAudio.Graph

/-- Whether a report is the last one of its session. -/
def Report.final : Report → Bool
  | aborted _ => true
  | _ => false

namespace Multipanner

/-! ## Making -/

section Making

variable {g g' : Graph} {id : NodeId} {m : Multipanner}

/-- Connections that were there before do not meet the new nodes. -/
theorem Assembled.quiet (h : Assembled g id m g') (hs : g.Sound) {e : Edge} (he : e ∈ g.edges)
    {x : NodeId} (hx : x ∈ m.inside) : e.source ≠ x.index ∧ e.target ≠ x.index := by
  have hjoin := hs.wellFormed.joins e he
  obtain ⟨a, ha⟩ := hjoin.exists_source
  obtain ⟨b, hb⟩ := hjoin.exists_target
  exact ⟨h.index_ne (node_handleAt.mpr ha) hx, h.index_ne (node_handleAt.mpr hb) hx⟩

theorem Assembled.edge_cases (h : Assembled g id m g') {e : Edge} (he : e ∈ g'.edges) :
    e = m.amplitudeWire ∨ e = m.hrtfWire ∨ e ∈ g.edges := by
  rw [h.edges] at he
  exact (List.mem_cons.mp he).imp_right List.mem_cons.mp

/-- Only the input stage has connections that leave. -/
theorem Assembled.source_ne (h : Assembled g id m g') (hs : g.Sound) {e : Edge} (he : e ∈ g'.edges)
    {x : NodeId} (hx : x ∈ m.inside) (hne : m.input.index ≠ x.index) : e.source ≠ x.index := by
  rcases h.edge_cases he with rfl | rfl | he
  · exact hne
  · exact hne
  · exact (h.quiet hs he hx).1

/-- Only the panners have connections that arrive. -/
theorem Assembled.target_ne (h : Assembled g id m g') (hs : g.Sound) {e : Edge} (he : e ∈ g'.edges)
    {x : NodeId} (hx : x ∈ m.inside) (hneH : x.index ≠ m.hrtf.index)
    (hneA : x.index ≠ m.amplitude.index) : e.target ≠ x.index := by
  rcases h.edge_cases he with rfl | rfl | he
  · exact Ne.symm hneA
  · exact Ne.symm hneH
  · exact (h.quiet hs he hx).2

/-- A new multipanner has its nodes inside. -/
theorem Assembled.exists_inside (h : Assembled g id m g') :
    ∃ nI nO nH nA, Inside id m g' nI nO nH nA ∧ nO.layout = .symmetric 0 ∧
      nO.properties = .standard ∧ nH.properties = hrtfProperties ∧
      nA.properties = AmplitudePanner.properties := by
  obtain ⟨_, _, hI⟩ := h.input
  obtain ⟨_, _, hO⟩ := h.output
  obtain ⟨_, _, _, hH⟩ := h.hrtf
  obtain ⟨_, _, hA⟩ := h.amplitude
  exact ⟨_, _, _, _, {
    sound := h.sound
    nodup := h.nodup
    input := hI
    output := hO
    hrtf := hH
    amplitude := hA
    owned := by simp
    inputType := rfl
    outputType := rfl
    hrtfType := rfl
    amplitudeType := rfl
    inputLayout := rfl
    hrtfLayout := rfl
    amplitudeLayout := mapLayout_default.symm
    outputFrame := rfl
    hrtfFrame := rfl
    amplitudeFrame := rfl }, rfl, rfl, rfl, rfl⟩

/-- Nothing feeds the output stage of a new multipanner. -/
theorem Assembled.loose (h : Assembled g id m g') (hs : g.Sound)
    (hnd : (m.inside.map NodeId.index).Nodup) : Loose m g'.edges := by
  obtain ⟨⟨-, hIH, hIA⟩, ⟨hOH, hOA⟩, hHA⟩ := nodup_map_inside.mp hnd
  refine ⟨by rw [h.edges]; simp [hrtfWire], by rw [h.edges]; simp [amplitudeWire],
    fun e he ht => ?_, fun e he ht => ?_, fun e he ht => ?_, fun e he hsource => ?_⟩
  · rcases h.edge_cases he with rfl | rfl | he
    · exact absurd ht (Ne.symm hHA)
    · rfl
    · exact absurd ht (h.quiet hs he m.hrtf_mem).2
  · rcases h.edge_cases he with rfl | rfl | he
    · rfl
    · exact absurd ht hHA
    · exact absurd ht (h.quiet hs he m.amplitude_mem).2
  · exact absurd ht (h.target_ne hs he m.output_mem hOH hOA)
  · rcases hsource with hsource | hsource
    · exact absurd hsource (h.source_ne hs he m.hrtf_mem hIH)
    · exact absurd hsource (h.source_ne hs he m.amplitude_mem hIA)

/-- **A new multipanner takes on its first strategy, and is in order then.** -/
theorem Assembled.run_transition {s : Session} (hg : g.Housed) (h : Assembled g id m s.graph)
    {set : Setter} (hset : Plain set) :
    ∃ g', (transition set id .stereo).run s = (.ok (), { s with graph := g' }) ∧ Kept id m g' ∧
      find g' id = .ok m ∧ (∃ n, g'.node m.amplitude = .ok n ∧ Current n) ∧
      g'.node m.hrtf = s.graph.node m.hrtf := by
  obtain ⟨_, _, hM⟩ := h.panner
  obtain ⟨nI, nO, nH, nA, hinside, hlayout, hpO, hpH, hpA⟩ := h.exists_inside
  obtain ⟨⟨hIO, hIH, hIA⟩, -⟩ := nodup_map_inside.mp hinside.nodup_index
  have haccepts : ∀ e ∈ s.graph.edges, e.source = m.output.index → ∃ r,
      (s.graph.layoutAt e.target).inputSlots[e.inputSlot]? = some r ∧
        r.count = Strategy.stereo.channels :=
    fun e he hs => absurd hs (h.source_ne hg.sound he m.output_mem hIO)
  have hno : ¬ Leads s.graph.edges m.output.index m.input.index :=
    not_leads (fun e he => h.target_ne hg.sound he m.input_mem hIH hIA) (Ne.symm hIO)
  obtain ⟨g', nO', nA', hrun, hswitched⟩ := hinside.run_transition
    (h.loose hg.sound hinside.nodup_index) hM rfl hlayout haccepts hno (.inr hset)
  have hself : g'.Wrote id _ g' := .refl hswitched.panner hswitched.inside.sound
  have harranged := hswitched.arranged hself rfl rfl rfl rfl rfl ?_ ?_ ?_ fun x n k hx hk hne => ?_
  · obtain ⟨hnew, hnd⟩ := List.nodup_cons.mp h.nodup
    obtain ⟨-, ⟨hOH, -⟩, hHA⟩ := nodup_inside.mp hnd
    refine ⟨g', hrun, ⟨_, _, _, _, _, _, harranged⟩, find_eq_ok.mpr ⟨_, hswitched.panner, ?_⟩,
      ⟨nA', hswitched.inside.amplitude, hswitched.current.resolve_left (by decide)⟩,
      hswitched.others _ (ne_of_mem_of_not_mem m.hrtf_mem hnew) (Ne.symm hOH) hHA⟩
    simp only [← h.strategy]
  · rw [hpH]
    simp only [forwardedToPanners, List.forall_mem_cons]
    exact ⟨rfl, rfl, rfl, List.forall_mem_nil _⟩
  · rw [hpA]
    simp only [forwardedToPanners, List.forall_mem_cons]
    exact ⟨rfl, rfl, rfl, List.forall_mem_nil _⟩
  · rw [hpO]
    simp only [forwardedToOutput, List.forall_mem_cons]
    exact ⟨rfl, rfl, rfl, List.forall_mem_nil _⟩
  · -- the nodes of other multipanners are alive, and those of this one are new
    obtain hold := (h.panner_cases hx hk).resolve_left fun hsame => hne hsame.1
    intro y hy hmem
    obtain ⟨ny, hny, -⟩ := hg.owns x n k hold hk y hy
    exact h.fresh y hmem ny hny

/-- **A multipanner is made from every dataset with responses.** -/
theorem run_create {s : Session} (hs : s.graph.Housed) {data : Dataset} {q : HrtfPanner}
    (hq : HrtfPanner.new data = .ok q) :
    ∃ id m g', (create Session.set data).run s = (.ok id, { s with graph := g' }) ∧ Kept id m g' ∧
      find g' id = .ok m ∧ (∃ n, g'.node m.amplitude = .ok n ∧ Current n) ∧
      g'.Holds m.hrtf (.hrtfPanner q) hrtfProperties (.spread 2) (some id) none := by
  obtain ⟨id, m, g₁, hassemble, ha, inputs, outputs, hhrtf⟩ := run_assemble_of_new hs.sound hq
  obtain ⟨g', hrun, hkept, hfind, hcurrent, hsame⟩ :=
    Assembled.run_transition (s := { s with graph := g₁ }) hs ha plain_set
  have hassemble' : (Action.onGraph (assemble data)).run s = (.ok id, { s with graph := g₁ }) := by
    rw [run_onGraph, hassemble]
  refine ⟨id, m, g', ?_, hkept, hfind, hcurrent, inputs, outputs, hsame.trans hhrtf⟩
  rw [create, run_bind_ok hassemble', run_bind_ok hrun]
  rfl

end Making

/-! ## Sessions -/

/-- The states of a session between steps, from the making of a multipanner on, as long as its
interior is spared and nobody observes it or takes it away.  An abort ends the session. -/
inductive Tended (M : NodeId) (m : Multipanner) : Session → Prop
  | made {s t : Session} {label data : Label} : s.Ran →
      s.step (.create label (.multipanner data)) = (.answer (.node M), t) → find t.graph M = .ok m →
      Tended M m t
  | step {s : Session} {step : Step} : Tended M m s → step.Complies (spares M m) s →
      (s.step step).1.final = false → Tended M m (s.step step).2

/-- A dataset is looked up, or the session is aborted. -/
theorem run_dataset_cases (label : Label) (s : Session) :
    (∃ d, (Action.dataset label).run s = (.ok d, s)) ∨
      ∃ a, (Action.dataset label).run s = (.error (.aborted a), s) := by
  cases hnumber : s.datasets.get? label with
  | none =>
    refine .inr ⟨.unbound label, ?_⟩
    rw [Action.dataset, Action.named]
    refine run_bind_error ?_
    rw [run_bind_ok (run_get s), hnumber]
    rfl
  | some number =>
    have hnamed : (Action.named Session.datasets label).run s = (.ok number, s) := by
      rw [Action.named, run_bind_ok (run_get s), hnumber]
      rfl
    rw [Action.dataset, run_bind_ok hnamed, run_bind_ok (run_get s)]
    cases s.library.datasets[number]? with
    | some d => exact .inl ⟨d, rfl⟩
    | none => exact .inr ⟨.unbound label, rfl⟩

/-- A multipanner is in order after the step that makes it. -/
theorem step_create {s : Session} {data : Label} {d : Dataset} {q : HrtfPanner} (hs : s.Ran)
    (hd : (Action.dataset data).run s = (.ok d, s)) (hq : HrtfPanner.new d = .ok q) (label : Label) :
    ∃ M m g', s.step (.create label (.multipanner data))
      = (.answer (.node M), { s with graph := g', nodes := s.nodes.bind label M }) ∧ Kept M m g' ∧
        find g' M = .ok m ∧ (∃ n, g'.node m.amplitude = .ok n ∧ Current n) ∧
        g'.Holds m.hrtf (.hrtfPanner q) hrtfProperties (.spread 2) (some M) none := by
  obtain ⟨M, m, g', hcreate, hkept, hfind, hcurrent, hhrtf⟩ := run_create hs.housed hq
  have hrun : (Step.create label (.multipanner data)).run.run s
      = (.ok (.answer (.node M)), { s with graph := g', nodes := s.nodes.bind label M }) := by
    refine (run_bind_ok ?_).trans rfl
    rw [Creation.run, run_bind_ok hd, run_bind_ok hcreate]
    rfl
  exact ⟨M, m, g', by rw [Session.step, hrun], hkept, hfind, hcurrent, hhrtf⟩

/-- A multipanner that was made is in order; the panner for headphones inside is new, and the one
over loudspeakers has the map of its properties. -/
theorem kept_of_created {s t : Session} {label data : Label} {M : NodeId} (hs : s.Ran)
    (hstep : s.step (.create label (.multipanner data)) = (.answer (.node M), t)) :
    ∃ m d q, (Action.dataset data).run s = (.ok d, s) ∧ HrtfPanner.new d = .ok q ∧
      Kept M m t.graph ∧ find t.graph M = .ok m ∧
      (∃ n, t.graph.node m.amplitude = .ok n ∧ Current n) ∧
      t.graph.Holds m.hrtf (.hrtfPanner q) hrtfProperties (.spread 2) (some M) none := by
  have habort : ∀ {a s'}, (Creation.run label (.multipanner data)).run s
      = (.error (.aborted a), s') → False := by
    intro a s' hrun
    have hrun' : (Step.create label (.multipanner data)).run.run s = (.error (.aborted a), s') :=
      run_bind_error hrun
    rw [Session.step, hrun'] at hstep
    cases hstep
  rcases run_dataset_cases data s with ⟨d, hd⟩ | ⟨a, ha⟩
  · cases hq : HrtfPanner.new d with
    | error a =>
      have hrun : (Creation.run label (.multipanner data)).run s = (.error (.aborted a), s) := by
        rw [Creation.run, run_bind_ok hd]
        refine run_bind_error (run_bind_error ?_)
        rw [run_onGraph, run_assemble_of_error hq]
      exact (habort hrun).elim
    | ok q =>
      obtain ⟨M', m, g', hstep', hkept, hfind, hcurrent, hhrtf⟩ := step_create hs hd hq label
      rw [hstep'] at hstep
      cases hstep
      exact ⟨m, d, q, hd, hq, hkept, hfind, hcurrent, hhrtf⟩
  · exact (habort (run_bind_error ha)).elim

/-- **A tended multipanner is in order between all steps.** -/
theorem Tended.kept {M : NodeId} {m : Multipanner} {s : Session} (h : Tended M m s) :
    Kept M m s.graph := by
  induction h with
  | made hs hstep hfind =>
    obtain ⟨m', -, -, -, -, hkept, hfind', -⟩ := kept_of_created hs hstep
    cases hfind.symm.trans hfind'
    exact hkept
  | @step s step _ hcomplies hno ih =>
    have houtcome := (stable_kept M m).outcome_step (special_kept M m) step s ih
    rw [hcomplies] at houtcome
    rw [Session.snd_step]
    rw [Session.step] at hno
    rcases hr : step.run.run s with ⟨(e | a) | report, s'⟩
    · rw [hr] at houtcome
      exact houtcome
    · rw [hr] at hno
      cases hno
    · rw [hr] at houtcome
      exact houtcome

/-! ## In order -/

/-- A multipanner as its strategy has it: what it knows of itself, how it is wired, how wide it is,
and which values it passed on. -/
structure InOrder (M : NodeId) (m : Multipanner) (g : Graph) : Prop where
  state : find g M = .ok m
  strategy : g.value M .strategy = .ok (.int m.strategy.toInt)
  /-- Connections that leave the multipanner begin at its output stage. -/
  leaves : g.sourceSide M.index = .ok m.output.index
  hrtfWire : m.hrtfWire ∈ g.edges
  amplitudeWire : m.amplitudeWire ∈ g.edges
  /-- The output stage is fed by one connection, from the panner of the strategy. -/
  fed : ∀ e, (e ∈ g.edges ∧ e.target = m.output.index) ↔ e = m.feed
  hrtfFeeds : Feeds g.edges m.hrtf.index m.output.index ↔ m.strategy = .hrtf
  amplitudeFeeds : Feeds g.edges m.amplitude.index m.output.index ↔ m.strategy ≠ .hrtf
  width : ∃ n, g.node m.output = .ok n ∧ n.layout = .symmetric m.strategy.channels
  toPanners : ∀ p ∈ forwardedToPanners, ∃ v, g.value M p = .ok v ∧ g.value m.hrtf p = .ok v ∧
    g.value m.amplitude p = .ok v
  toOutput : ∀ p ∈ forwardedToOutput, ∃ v, g.value M p = .ok v ∧ g.value m.output p = .ok v

variable {M : NodeId} {m : Multipanner} {g : Graph} {nM nI nO nH nA : Node} {s : Session}
  {v : PropertyValue}

theorem value_of_value? {x : NodeId} {n : Node} {p : PropertyId} (hn : g.node x = .ok n)
    (hv : n.properties.value? p = some v) : g.value x p = .ok v := by
  obtain ⟨y, hy, rfl⟩ := Option.map_eq_some_iff.mp hv
  rw [value, property_eq_ok.mpr ⟨n, hn, hy⟩]
  rfl

/-- Every property that is passed on is there. -/
theorem Arranged.exists_value (h : Arranged M m g nM nI nO nH nA) {p : PropertyId} {r : ValueRange}
    (hr : (observed.get? p).map Property.range = some r) :
    ∃ v, nM.properties.value? p = some v := by
  obtain ⟨y, hy, -⟩ := Option.map_eq_some_iff.mp hr
  obtain ⟨x, hx, -⟩ := Properties.exists_of_frame h.frame hy
  exact ⟨x.value, by rw [Properties.value?, hx]; rfl⟩

theorem Arranged.inOrder (h : Arranged M m g nM nI nO nH nA) : InOrder M m g := by
  have hfed : ∀ e, (e ∈ g.edges ∧ e.target = m.output.index) ↔ e = m.feed := by
    refine fun e => ⟨fun ⟨he, ht⟩ => h.wired.onlyFeed e he (h.wired.toOutput e he ht), ?_⟩
    rintro rfl
    exact ⟨h.wired.feed, rfl⟩
  have hfeeds : ∀ i, Feeds g.edges i m.output.index ↔ i = m.active.index := by
    refine fun i => ⟨fun ⟨e, he, hs, ht⟩ => ?_, fun hi => ⟨m.feed, h.wired.feed, hi.symm, rfl⟩⟩
    rw [(hfed e).mp ⟨he, ht⟩] at hs
    exact hs.symm
  obtain ⟨-, -, hHA⟩ := nodup_map_inside.mp h.nodup_index
  refine ⟨find_eq_ok.mpr ⟨nM, h.panner, h.kind⟩, value_of_value? h.panner h.strategy, ?_,
    h.wired.hrtfWire, h.wired.amplitudeWire, hfed, ?_, ?_, ⟨nO, h.output, h.outputLayout⟩,
    fun p hp => ?_, fun p hp => ?_⟩
  · rw [h.sound.nested.sourceSide h.panner, Node.sourceEnd, h.ends]
  · rw [hfeeds, active]
    split
    · next hs => simp [hs]
    · next hs => exact ⟨fun heq => absurd heq hHA, fun heq => absurd heq hs⟩
  · rw [hfeeds, active]
    split
    · next hs => exact ⟨fun heq => absurd heq.symm hHA, fun hne => absurd hs hne⟩
    · next hs => exact ⟨fun _ => hs, fun _ => rfl⟩
  · obtain ⟨⟨z, -, hrange, -⟩, -⟩ := range_panners hp
    obtain ⟨v, hv⟩ := h.exists_value hrange
    exact ⟨v, value_of_value? h.panner hv, value_of_value? h.hrtf ((h.toHrtf p hp).trans hv),
      value_of_value? h.amplitude ((h.toAmplitude p hp).trans hv)⟩
  · obtain ⟨z, -, hrange, -⟩ := range_output hp
    obtain ⟨v, hv⟩ := h.exists_value hrange
    exact ⟨v, value_of_value? h.panner hv, value_of_value? h.output ((h.toOutput p hp).trans hv)⟩

/-! ## Changing the strategy -/

/-- A property of a session is set with room for nested changes. -/
theorem exists_run_set (s : Session) (id : NodeId) (p : PropertyId) (v : PropertyValue) :
    ∃ run set, Faithful run set ∧ Plain set ∧
      (Session.set id p v).run s = (setWith run id p v).run s := by
  obtain ⟨depth, hdepth⟩ : ∃ depth, s.graph.observerCount + 1 + spareDepth = depth + 1 + 1 :=
    ⟨s.graph.observerCount + 255, by rw [spareDepth]⟩
  refine ⟨_, _, faithful_react (change (depth + 1)), plain_setWith _, ?_⟩
  rw [Session.set, run_bind_ok (run_get s), hdepth, change]

theorem exists_strategy_iff : (∃ strategy : Strategy, v = .int strategy.toInt ∧
    Accepts m g strategy.channels) ↔ ∃ k strategy, v = .int k ∧ 0 ≤ k ∧ k ≤ 3 ∧
      Strategy.ofInt k = .ok strategy ∧ Accepts m g strategy.channels := by
  constructor
  · rintro ⟨strategy, rfl, hacc⟩
    exact ⟨strategy.toInt, strategy, rfl, by cases strategy <;> decide, by cases strategy <;> decide,
      Strategy.ofInt_toInt strategy, hacc⟩
  · rintro ⟨k, strategy, rfl, hlow, hhigh, hk, hacc⟩
    refine ⟨strategy, ?_, hacc⟩
    obtain rfl | rfl | rfl | rfl : k = 0 ∨ k = 1 ∨ k = 2 ∨ k = 3 := by omega
    · cases hk
      rfl
    · cases hk
      rfl
    · cases hk
      rfl
    · cases hk
      rfl

/-- **A tended multipanner is in order, and its strategy is changed as a whole or not at all**: it is
changed exactly if the new value is a strategy whose width every connection that leaves accepts, and
otherwise the session is as it was. -/
theorem inOrder_of_tended (h : Tended M m s) :
    (∃ strategy, InOrder M { m with strategy } s.graph) ∧
    ∀ v, ((∃ t, (Session.set M .strategy v).run s = (.ok (), t)) ↔
        ∃ k strategy, v = .int k ∧ 0 ≤ k ∧ k ≤ 3 ∧ Strategy.ofInt k = .ok strategy ∧
          Accepts m s.graph strategy.channels) ∧
      (∀ t, (Session.set M .strategy v).run s = (.ok (), t) →
        ∃ strategy : Strategy, v = .int strategy.toInt ∧ InOrder M { m with strategy } t.graph) ∧
      ∀ f t, (Session.set M .strategy v).run s = (.error f, t) → t = s := by
  obtain ⟨strategy, nM, nI, nO, nH, nA, h⟩ := h.kept
  refine ⟨⟨strategy, h.inOrder⟩, fun v => ?_⟩
  obtain ⟨run, set, hrun, hset, heq⟩ := exists_run_set s M .strategy v
  rw [heq, ← exists_strategy_iff]
  by_cases hadmitted : ∃ next : Strategy, v = .int next.toInt ∧ Accepts m s.graph next.channels
  · obtain ⟨next, rfl, hacc⟩ := hadmitted
    obtain ⟨g', hok, nM', nO', nA', h'⟩ := h.run_setStrategy hrun (.inr hset) hacc
    rw [hok]
    refine ⟨⟨fun _ => ⟨next, rfl, hacc⟩, fun _ => ⟨_, rfl⟩⟩, fun t ht => ?_, fun f t ht => ?_⟩
    · cases ht
      exact ⟨next, rfl, h'.inOrder⟩
    · cases ht
  · obtain ⟨e, hrefused⟩ := h.run_setStrategy_refused hrun hadmitted
    rw [hrefused]
    refine ⟨⟨nofun, fun hex => absurd hex hadmitted⟩, nofun, fun f t ht => ?_⟩
    cases ht
    rfl

/-- A loaded set of one response, and a node with two inputs. -/
def oneResponse : Session :=
  let s := ((Session.new 44100 64).step
    (.load "ears" (.buffer (.fields ⟨44100, 0, 0, [1], 1, [0x3f800000]⟩)))).2
  (s.step (.create "gain" (.gain 2))).2

/-- A multipanner that is connected to this node. -/
def pannerIntoGain : Session :=
  let s := (oneResponse.step (.create "panner" (.multipanner "ears"))).2
  (s.step (.command (.connect "panner" 0 "gain" 0))).2

theorem exists_tended_pannerIntoGain : ∃ m, Tended ⟨5, 0⟩ m pannerIntoGain := by
  have hd : (Action.dataset "ears").run oneResponse
      = (.ok ⟨44100, 0, 0, [1], 1, [0x3f800000]⟩, oneResponse) := rfl
  have hok : (HrtfPanner.new ⟨44100, 0, 0, [1], 1, [0x3f800000]⟩).isOk = true := by decide +kernel
  cases hq : HrtfPanner.new ⟨44100, 0, 0, [1], 1, [0x3f800000]⟩ with
  | error a =>
    rw [hq] at hok
    cases hok
  | ok q =>
    have hs : oneResponse.Ran := .step (.step (.new 44100 64) _) _
    obtain ⟨M, m, g', hstep, -, hfind, -⟩ := step_create hs hd hq "panner"
    have hM : (oneResponse.step (.create "panner" (.multipanner "ears"))).2.nodes.get? "panner"
        = some ⟨5, 0⟩ := by decide +kernel
    rw [hstep] at hM
    cases hM
    have hstep' : oneResponse.step (.create "panner" (.multipanner "ears"))
        = (.answer (.node ⟨5, 0⟩), (oneResponse.step (.create "panner" (.multipanner "ears"))).2) := by
      rw [hstep]
    have hno : (Session.step (oneResponse.step (.create "panner" (.multipanner "ears"))).2
        (.command (.connect "panner" 0 "gain" 0))).1.final = false := by decide +kernel
    refine ⟨m, .step (.made hs hstep' ?_) rfl hno⟩
    rw [hstep]
    exact hfind

theorem inOrder_pannerIntoGain : ∃ m, Tended ⟨5, 0⟩ m pannerIntoGain ∧
    (∃ strategy, InOrder ⟨5, 0⟩ { m with strategy } pannerIntoGain.graph) ∧
    (∃ t, (Session.set ⟨5, 0⟩ .strategy (.int 0)).run pannerIntoGain = (.ok (), t) ∧
      InOrder ⟨5, 0⟩ { m with strategy := .hrtf } t.graph) ∧
    ∃ f, (Session.set ⟨5, 0⟩ .strategy (.int 2)).run pannerIntoGain
      = (.error f, pannerIntoGain) := by
  obtain ⟨m, h⟩ := exists_tended_pannerIntoGain
  obtain ⟨hin, hset⟩ := inOrder_of_tended h
  have hok : ((Session.set ⟨5, 0⟩ .strategy (.int 0)).run pannerIntoGain).1.isOk = true := by
    decide +kernel
  have herror : ((Session.set ⟨5, 0⟩ .strategy (.int 2)).run pannerIntoGain).1.isOk = false := by
    decide +kernel
  refine ⟨m, h, hin, ?_, ?_⟩
  · rcases hr : (Session.set ⟨5, 0⟩ .strategy (.int 0)).run pannerIntoGain with ⟨f | _, t⟩
    · rw [hr] at hok
      cases hok
    · obtain ⟨strategy, hv, horder⟩ := (hset (.int 0)).2.1 t hr
      obtain rfl : strategy = .hrtf := by cases strategy <;> cases hv; rfl
      exact ⟨t, rfl, horder⟩
  · rcases hr : (Session.set ⟨5, 0⟩ .strategy (.int 2)).run pannerIntoGain with ⟨f | _, t⟩
    · exact ⟨f, by rw [(hset (.int 2)).2.2 f t hr]⟩
    · rw [hr] at herror
      cases herror

end Multipanner

end SpatialAudio
