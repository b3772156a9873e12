import SpatialAudio.Proofs.Listening

/-!
# Proofs/Residue — what a panner for headphones keeps while it is not heard

The **intake** of a panner is the input of all blocks that it convolved (`intake`).  Nothing but a
block adds to it and nothing takes from it: a panner **remembers** its whole intake
(`Remembers.replay`), and its next block follows that, however much time has passed
(`PlaysAfter`).  If the end of the intake is silent, then as far as the responses reach back it might
as well have heard nothing (`PlaysAfter.of_silent`).

The panner inside a multipanner is **detached** while the multipanner has another strategy: no
connection leaves it.  It stays so until it is connected again, because nobody else can connect a
private node (`Detached.happening`), and until then a block for any other node passes it by
(`Detached.renders?_eq_none`).  So on its return it plays on from what it took in before it was left:
a change of strategy does not reset it.
-/

namespace SpatialAudio

open Relation SpatialAudio.Graph

/-! ## Intake -/

/-- The node `x` before and after a block for `id` in which it convolves its input: it is processed,
is not suspended and has an output for each ear. -/
def Graph.convolves? (g : Graph) (id x : NodeId) : Option (Node × Node) :=
  (g.renders? id x).filter fun r => 2 ≤ r.1.layout.outputs

/-- What a panner takes in when something happens. -/
def Happening.intake (x : NodeId) (g : Graph) : Happening → List Float32
  | deed (.pull id) => ((g.convolves? id x).map fun r => r.2.input).getD []
  | _ => []

/-- What a panner takes in during a history. -/
def intake (x : NodeId) : Graph → List Happening → List Float32
  | _, [] => []
  | g, k :: ks => k.intake x g ++ intake x (k.after g) ks

/-- The past of a convolver that has heard the signal given. -/
def Convolver.pastAfter (c : Convolver) (signal : List Float32) : Convolver.Past :=
  ⟨signal, (c.left, c.right), (c.oldLeft, c.oldRight), c.fading⟩

/-- The node `n` is a panner over a dataset and convolves a block that follows the signal given, after
which it is `n'`. -/
def PlaysAfter (data : Dataset) (signal : List Float32) (n n' : Node) : Prop :=
  ∃ q q' rest, n.kind = .hrtfPanner q ∧ q.refresh n.properties = .ok q' ∧
    n.layout.outputs = rest.length + 2 ∧
    n'.outputs = finish n.properties
      ((q'.convolver.pastAfter signal).block data n'.input Prod.fst
        :: (q'.convolver.pastAfter signal).block data n'.input Prod.snd :: rest)

/-- The node is a panner over a dataset with the history of the signal given. -/
def Remembers (data : Dataset) (signal : List Float32) (n : Node) : Prop :=
  ∃ q, n.kind = .hrtfPanner q ∧
    Convolver.Tracks data blockSize (q.convolver.pastAfter signal) q.convolver

variable {g g' : Graph} {x id M : NodeId} {n n' : Node} {q q' : HrtfPanner} {props : Properties}
  {data : Dataset} {signal : List Float32} {past : Convolver.Past} {k : Happening}

theorem intake_append (x : NodeId) (g : Graph) (hs ks : List Happening) :
    intake x g (hs ++ ks) = intake x g hs ++ intake x (replay g hs) ks := by
  induction hs generalizing g with
  | nil => rfl
  | cons k hs ih =>
    rw [List.cons_append, intake, intake, ih, List.append_assoc]
    rfl

theorem Graph.convolves?_eq_some :
    g.convolves? id x = some (n, n') ↔ g.renders? id x = some (n, n') ∧ 2 ≤ n.layout.outputs := by
  simp [convolves?]

theorem Graph.convolves?_eq_none (h : g.renders? id x = none) : g.convolves? id x = none := by
  rw [convolves?, h]
  rfl

theorem Happening.intake_eq_nil (h : ∀ id, k = .deed (.pull id) → g.convolves? id x = none) :
    k.intake x g = [] := by
  cases k with
  | deed d =>
    cases d with
    | pull id =>
      rw [intake, h id rfl]
      rfl
    | _ => rfl
  | _ => rfl

/-! ## A panner remembers its intake -/

theorem Convolver.Tracks.past_eq {length : Nat} {c : Convolver}
    (h : Convolver.Tracks data length past c) : past = c.pastAfter past.signal := by
  rw [Convolver.pastAfter, h.current, h.previous, h.fading]

theorem remembers_of_tracks (h : Convolver.Tracks data blockSize past q.convolver)
    (hkind : n.kind = .hrtfPanner q) : Remembers data past.signal n :=
  ⟨q, hkind, h.past_eq ▸ h⟩

theorem Remembers.tracks (h : Remembers data signal n) (hkind : n.kind = .hrtfPanner q) :
    Convolver.Tracks data blockSize (q.convolver.pastAfter signal) q.convolver := by
  obtain ⟨q', hq', htracks⟩ := h
  cases hkind.symm.trans hq'
  exact htracks

/-- New responses leave the history alone. -/
theorem HrtfPanner.tracks_refresh (h : Convolver.Tracks data blockSize past q.convolver)
    (hrefresh : q.refresh props = .ok q') :
    Convolver.Tracks data blockSize (q'.convolver.pastAfter past.signal) q'.convolver := by
  have htracks : ∃ past', Convolver.Tracks data blockSize past' q'.convolver ∧
      past'.signal = past.signal := by
    obtain ⟨-, hconvolver⟩ := refresh_eq_ok hrefresh
    split at hconvolver
    · obtain ⟨left, right, hnew, -⟩ := Convolver.setDirection_eq_ok hconvolver
      rw [h.dataset] at hnew
      exact ⟨_, h.setDirection hnew hconvolver, rfl⟩
    · exact ⟨past, hconvolver ▸ h, rfl⟩
  obtain ⟨past', htracks, hsignal⟩ := htracks
  rw [← hsignal, ← htracks.past_eq]
  exact htracks

/-- **A block that is convolved follows all that is remembered, and is remembered.** -/
theorem Remembers.convolve (h : Remembers data signal n) (hq : n.kind = .hrtfPanner q)
    {outputs outputs' : List Block} (hlength : outputs.length = n.layout.outputs)
    (htwo : 2 ≤ n.layout.outputs)
    (hprocess : q.process n.properties n'.inputs outputs = .ok (q', outputs'))
    (hkind : n'.kind = .hrtfPanner q') (houtputs : n'.outputs = finish n.properties outputs') :
    PlaysAfter data signal n n' ∧ Remembers data (signal ++ n'.input) n' := by
  rw [← hlength] at htwo
  obtain ⟨q₁, left, right, rest, hrefresh, rfl, rfl, rfl⟩ := HrtfPanner.convolved_of_process htwo hprocess
  have htracks := HrtfPanner.tracks_refresh (h.tracks hq) hrefresh
  have hblocks := HrtfPanner.convolve_eq htracks (n'.inputs.headD Block.silent) left right
  have htracks' := htracks.process (n'.inputs.headD Block.silent).toArray left.toArray right.toArray
  refine ⟨⟨q, q₁, rest, hq, hrefresh, hlength.symm, ?_⟩, remembers_of_tracks htracks' hkind⟩
  rw [houtputs, hblocks]
  rfl

/-- Without an output for each ear nothing is convolved. -/
theorem Remembers.unheard (h : Remembers data signal n) (hq : n.kind = .hrtfPanner q)
    {outputs outputs' : List Block} (hfew : outputs.length < 2) {inputs : List Block}
    (hprocess : q.process n.properties inputs outputs = .ok (q', outputs'))
    (hkind : n'.kind = .hrtfPanner q') : Remembers data signal n' := by
  obtain ⟨q₁, hrefresh, hprocess⟩ := bind_eq_ok.mp hprocess
  have hsame : q₁ = q' := by
    match outputs, hfew with
    | [], _ => cases hprocess; rfl
    | [_], _ => cases hprocess; rfl
  subst hsame
  exact ⟨q₁, hkind, HrtfPanner.tracks_refresh (h.tracks hq) hrefresh⟩

/-- **Whatever happens, a panner remembers what it took in before, and what it takes in now.** -/
theorem Remembers.happening (h : g.Sound) (hR : Remembers data signal n) (hn : g.node x = .ok n)
    (hn' : (k.after g).node x = .ok n') : Remembers data (signal ++ k.intake x g) n' := by
  have ⟨q, hq, htracks⟩ := hR
  cases k.handled h hn hq hn' with
  | rendered hblock hrenders hlength hprocess hkind houtputs hvalues =>
    subst hblock
    by_cases htwo : 2 ≤ n.layout.outputs
    · rw [Happening.intake, convolves?_eq_some.mpr ⟨hrenders, htwo⟩]
      exact (hR.convolve hq hlength htwo hprocess hkind houtputs).2
    · rw [Happening.intake_eq_nil, List.append_nil]
      · exact hR.unheard hq (by omega) hprocess hkind
      · intro id hid
        cases hid
        rw [convolves?, hrenders]
        exact if_neg (by simpa using htwo)
  | marked hmarks hkind =>
    rw [Happening.intake_eq_nil, List.append_nil]
    · exact ⟨_, hkind, htracks⟩
    · rintro id rfl
      cases hmarks
  | left hquiet hkind =>
    rw [Happening.intake_eq_nil fun id hid => convolves?_eq_none (hquiet id hid), List.append_nil]
    exact ⟨q, hkind.trans hq, htracks⟩

/-- **A panner remembers all that it took in.** -/
theorem Remembers.replay {hs : List Happening} (h : g.Sound) (hR : Remembers data signal n)
    (hn : g.node x = .ok n) (halive : Throughout (Alive x) g hs) :
    ∃ n', (SpatialAudio.replay g hs).node x = .ok n' ∧
      Remembers data (signal ++ intake x g hs) n' := by
  induction hs generalizing g n signal with
  | nil =>
    rw [intake, List.append_nil]
    exact ⟨n, hn, hR⟩
  | cons k hs ih =>
    obtain ⟨-, halive⟩ := throughout_cons.mp halive
    obtain ⟨n', hn'⟩ := contains_iff.mp halive.start
    rw [intake, ← List.append_assoc]
    exact ih (h.happening k) (hR.happening h hn hn') hn' halive

/-- A block that is convolved follows all that is remembered. -/
theorem Remembers.playsAfter (h : g.Sound) (hR : Remembers data signal n) (hn : g.node x = .ok n)
    {m : Node} (hblock : g.convolves? id x = some (m, n')) : PlaysAfter data signal m n' := by
  obtain ⟨hrenders, htwo⟩ := convolves?_eq_some.mp hblock
  obtain ⟨g', hpull, hm, hn'⟩ := renders?_eq_some hrenders
  cases hn.symm.trans hm
  have ⟨q, hq, _⟩ := hR
  obtain ⟨-, hcases⟩ := h.renders_cases hpull hn hn' hq
  rcases hcases with ⟨hnone, -⟩ | ⟨-, outputs, outputs', q', hlength, hprocess, hkind, houtputs⟩
  · cases hnone.symm.trans hrenders
  · exact (hR.convolve hq hlength htwo hprocess hkind houtputs).1

/-! ## Silence -/

namespace Convolver

variable {response : Array Float32} {length : Nat}

/-- A response does not reach back beyond a silence that is as long as it is. -/
theorem direct_of_silent {block : List Float32}
    (hsilent : ∀ y ∈ signal.drop (signal.length + 1 - length), y = 0) (i : Nat) :
    direct response length (signal ++ block) (signal.length + i) = direct response length block i := by
  rw [direct, direct]
  refine foldl_range_congr (fun sum j hj => ?_) _
  have hheard : heardAt (signal ++ block) ((signal.length + i : Nat) - j)
      = heardAt block ((i : Int) - j) := by
    by_cases hji : j ≤ i
    · rw [show ((signal.length + i : Nat) : Int) - j = signal.length + (i - j : Nat) by omega,
        heardAt_append_right, ← Int.natCast_sub hji, heardAt_natCast]
    · -- the sample is one of the signal before, and heard within the length of the response
      rw [heardAt_append_left (by omega), heardAt, heardAt, if_pos (by omega : (i : Int) - j < 0)]
      split
      · rfl
      · next hstart =>
        rw [List.getD_eq_getElem?_getD]
        cases hy : signal[(((signal.length + i : Nat) : Int) - j).toNat]? with
        | none => rfl
        | some y =>
          refine hsilent y (List.mem_iff_getElem?.mpr
            ⟨(((signal.length + i : Nat) : Int) - j).toNat - (signal.length + 1 - length), ?_⟩)
          rw [List.getElem?_drop, ← hy]
          congr 1
          omega
  rw [hheard]

theorem Past.block_of_silent (past : Past)
    (hsilent : ∀ y ∈ past.signal.drop (past.signal.length + 1 - data.responseLength), y = 0)
    (input : List Float32) (ear : Array Float32 × Array Float32 → Array Float32) :
    past.block data input ear = { past with signal := [] }.block data input ear := by
  have hsample : past.sample data blockSize input ear
      = { past with signal := [] }.sample data blockSize input ear := by
    funext i
    simp only [Past.sample, direct_of_silent hsilent, List.nil_append, List.length_nil, Nat.zero_add]
  rw [Past.block, Past.block, hsample]

end Convolver

/-- **After a silence as long as the responses are, a panner plays as if it had heard nothing.** -/
theorem PlaysAfter.of_silent (h : PlaysAfter data signal n n')
    (hsilent : ∀ y ∈ signal.drop (signal.length + 1 - data.responseLength), y = 0) :
    PlaysAfter data [] n n' := by
  obtain ⟨q, q', rest, hq, hrefresh, hlayout, houtputs⟩ := h
  refine ⟨q, q', rest, hq, hrefresh, hlayout, houtputs.trans ?_⟩
  rw [(q'.convolver.pastAfter signal).block_of_silent hsilent,
    (q'.convolver.pastAfter signal).block_of_silent hsilent]
  rfl

/-! ## New connections -/

/-- Where the connections begin that a deed adds. -/
def Deed.Draws {α : Type} (g : Graph) (e : Edge) : Deed α → Prop
  | .connect source .. => ∃ n, g.node source = .ok n ∧ n.owner = none ∧ e.source = n.sourceEnd source
  | .connectInterior source .. => ∃ n, g.node source = .ok n ∧ e.source = n.sourceEnd source
  | .assemble _ => ∀ x n, g.node x = .ok n → e.source ≠ x.index
  | _ => False

theorem Graph.mem_edges_connectAt {a b : NodeId} {o i : Nat} {e : Edge} (h : g.Sound)
    (ha : g.node a = .ok n) (hc : g.connectAt a.index o b.index i = .ok g') (he : e ∈ g'.edges) :
    e ∈ g.edges ∨ e.source = n.sourceEnd a := by
  obtain ⟨s, t, hsource, -, -, -, rfl⟩ := connectAt_eq_ok.mp hc
  cases (h.nested.sourceSide ha).symm.trans hsource
  split at he
  · exact .inl he
  · rw [edges_reschedule] at he
    rcases List.mem_cons.mp he with rfl | he
    · exact .inr rfl
    · exact .inl he

theorem Graph.edges_disconnectAt {i o : Nat} (hc : g.disconnectAt i o = .ok g') :
    g'.edges ⊆ g.edges := by
  intro e he
  obtain ⟨s, r, -, -, rfl⟩ := disconnectAt_eq_ok.mp hc
  split at he
  · rw [edges_reschedule] at he
    exact List.mem_of_mem_filter he
  · exact he

theorem Graph.Pulled.edges (h : Pulled g g') : g'.edges = g.edges := by
  induction h with
  | refl => rfl
  | tail _ hstep ih =>
    cases hstep with
    | played hw => exact hw.edges.trans ih
    | arranged i m q hm hk happly =>
      obtain ⟨f, rfl, -⟩ := applyLayoutAt_eq_modifyAt happly
      exact (edges_modifyAt _ _ _).trans ih

theorem Graph.edges_pull (h : g.pull id = .ok g') : g'.edges = g.edges := by
  obtain ⟨root, -, -, hpulled⟩ := pull_eq_ok h
  exact hpulled.edges.trans (edges_scheduleFor g root)

theorem Graph.edges_modifyProperty (g : Graph) (id : NodeId) (p : PropertyId)
    (f : Property → Property) : (g.modifyProperty id p f).edges = g.edges :=
  (alike_modifyProperty g id p f).edges

/-- **A deed adds connections only where it connects nodes.** -/
theorem Deed.mem_edges {α : Type} (h : g.Sound) (d : Deed α) {e : Edge}
    (he : e ∈ (d.after g).edges) : e ∈ g.edges ∨ d.Draws g e := by
  have hchange : ∀ {f : Graph → Except Error Graph},
      (∀ g', f g = .ok g' → e ∈ g'.edges → e ∈ g.edges ∨ d.Draws g e) →
        e ∈ ((GraphM.change f).run g).2.edges → e ∈ g.edges ∨ d.Draws g e := fun hf =>
    inv_change (I := fun g' => e ∈ g'.edges → e ∈ g.edges ∨ d.Draws g e) Or.inl hf
  have hupdate : ∀ {f : Graph → Except Failure Graph},
      (∀ g', f g = .ok g' → g'.edges = g.edges) →
        e ∈ ((GraphM.update f).run g).2.edges → e ∈ g.edges ∨ d.Draws g e := fun hf =>
    inv_update (I := fun g' => e ∈ g'.edges → e ∈ g.edges ∨ d.Draws g e) Or.inl
      fun g' hg' he => .inl (hf g' hg' ▸ he)
  cases d with
  | associate kind layout =>
    change e ∈ ((Graph.associate kind layout).run g).2.edges at he
    rcases associate_cases h kind layout with ⟨g', hrun, hw⟩ | ⟨_, g', hrun, -, -, hedges⟩
    · rw [hrun] at he
      exact .inl (hw.edges ▸ he)
    · rw [hrun] at he
      exact .inl (hedges ▸ he)
  | assemble data =>
    change e ∈ ((Multipanner.assemble data).run g).2.edges at he
    cases hq : HrtfPanner.new data with
    | error a =>
      rw [Multipanner.run_assemble_of_error hq] at he
      exact .inl he
    | ok q =>
      obtain ⟨id, m, g', hrun, ha⟩ := Multipanner.run_assemble h hq
      rw [hrun] at he
      rcases ha.edge_cases he with rfl | rfl | he
      · exact .inr fun x n hn => (ha.index_ne hn m.input_mem).symm
      · exact .inr fun x n hn => (ha.index_ne hn m.input_mem).symm
      · exact .inl he
  | remove id =>
    exact hchange (fun g' hr he => .inl ((h.toCoherent.removed hr).order.subset he)) he
  | connect source o target i =>
    refine hchange (fun g' hc he => ?_) he
    obtain ⟨⟨n, hn, hpublic⟩, -, hc⟩ := connect_eq_ok.mp hc
    exact (mem_edges_connectAt h hn hc he).imp_right fun hs => ⟨n, hn, hpublic, hs⟩
  | connectInterior source o target i =>
    refine hchange (fun g' hc he => ?_) he
    obtain ⟨⟨n, hn⟩, -, hc⟩ := connectInterior_eq_ok.mp hc
    exact (mem_edges_connectAt h hn hc he).imp_right fun hs => ⟨n, hn, hs⟩
  | disconnect source o =>
    exact hchange (fun g' hc he => .inl (edges_disconnectAt (disconnect_eq_ok.mp hc).2 he)) he
  | disconnectInterior source o =>
    exact hchange (fun g' hc he => .inl (edges_disconnectAt (disconnectInterior_eq_ok.mp hc).2 he)) he
  | arrange id layout =>
    refine hupdate (fun g' happly => ?_) he
    obtain ⟨n, hn, hw⟩ := h.exists_applyLayout happly
    exact hw.edges
  | observe phase id p o =>
    refine hchange (fun g' hadd he => .inl ?_) he
    obtain ⟨-, rfl⟩ := addObserver_eq_ok.mp hadd
    exact edges_modifyProperty g id p _ ▸ he
  | recomputeMap id =>
    refine .inl ?_
    change e ∈ ((Graph.recomputeMap id).run g).2.edges at he
    rcases h.recomputeMap_cases id with hsame | ⟨n, n', q, q', -, -, -, -, hw⟩
    · rwa [hsame] at he
    · exact hw.edges ▸ he
  | markRecompute id =>
    refine hchange (fun g' hmark he => .inl ?_) he
    obtain ⟨n, -, hmark⟩ := bind_eq_ok.mp hmark
    obtain ⟨q, -, hmark⟩ := bind_eq_ok.mp hmark
    cases hmark
    exact edges_modifyAt _ _ _ ▸ he
  | adopt id strategy =>
    refine hchange (fun g' hadopt he => .inl ?_) he
    obtain ⟨m, -, hadopt⟩ := bind_eq_ok.mp hadopt
    cases hadopt
    exact edges_modifyAt _ _ _ ▸ he
  | pull id => exact hupdate (fun g' hpull => edges_pull hpull) he
  | addRing capacity =>
    refine .inl ?_
    rw [Deed.after, Deed.run, Graph.addRing] at he
    split at he <;> exact he
  | clearFaults => exact .inl he
  | refill number ring => exact .inl he

/-! ## Detachment -/

/-- No connection leaves the node. -/
def Detached (x : NodeId) (g : Graph) : Prop := ∀ e ∈ g.edges, e.source ≠ x.index

instance (x : NodeId) (g : Graph) : Decidable (Detached x g) :=
  inferInstanceAs (Decidable (∀ e ∈ g.edges, e.source ≠ x.index))

/-- The node is private to `M`, and the connections of `M` do not begin at it. -/
structure Inner (M x : NodeId) (g : Graph) : Prop where
  owned : ∃ n, g.node x = .ok n ∧ n.owner = some M
  output : ∃ n e, g.node M = .ok n ∧ n.interior = some e ∧ e.output ≠ x

/-- Whether a deed calls for a private node: it connects it within its subgraph, or plays a block for
it. -/
def Deed.resumes {α : Type} (x : NodeId) : Deed α → Bool
  | .connectInterior source .. => source = x
  | .pull id => id = x
  | _ => false

/-- Whether a happening calls for a private node. -/
def Happening.resumes (x : NodeId) : Happening → Bool
  | deed d => d.resumes x
  | _ => false

/-- A private node stays so as long as it is there. -/
theorem Inner.happening (h : g.Sound) (hI : Inner M x g) (halive : Alive x (k.after g)) :
    Inner M x (k.after g) := by
  obtain ⟨n, hn, howner⟩ := hI.owned
  obtain ⟨m, e, hm, hends, hne⟩ := hI.output
  obtain ⟨n', hn'⟩ := contains_iff.mp halive
  have howner' : n'.owner = some M := (k.samePlace h hn hn').owner.trans howner
  obtain ⟨-, m', hm', -⟩ := (h.happening k).nested.owned x n' M hn' howner'
  exact ⟨⟨n', hn', howner'⟩, m', e, hm', (k.samePlace h hm hm').interior.trans hends, hne⟩

theorem Inner.replay {hs : List Happening} (h : g.Sound) (hI : Inner M x g)
    (halive : Throughout (Alive x) g hs) : Inner M x (SpatialAudio.replay g hs) := by
  induction hs generalizing g with
  | nil => exact hI
  | cons k hs ih =>
    obtain ⟨-, halive⟩ := throughout_cons.mp halive
    exact ih (h.happening k) (hI.happening h halive.start) halive

/-- **The connections of any other node begin elsewhere.** -/
theorem Inner.sourceEnd_ne (h : g.Sound) (hI : Inner M x g) (hn : g.node id = .ok n) (hid : id ≠ x) :
    n.sourceEnd id ≠ x.index := by
  obtain ⟨nx, hx, howner⟩ := hI.owned
  rw [Node.sourceEnd]
  cases hends : n.interior with
  | none => exact fun hindex => hid (eq_of_index_eq hn hx hindex)
  | some e =>
    -- only the owner of a node has it as an end, and `M` has another
    obtain ⟨m, hm, -, hm'⟩ := h.nested.ends id n e hn hends e.output (.inr rfl)
    intro hindex
    have hout := eq_of_index_eq hm hx hindex
    rw [hout] at hm
    cases hm.symm.trans hx
    cases hm'.symm.trans howner
    obtain ⟨n₀, e₀, hn₀, hends₀, hne⟩ := hI.output
    cases hn.symm.trans hn₀
    cases hends.symm.trans hends₀
    exact hne hout

/-- **A private node that is not called for stays detached.** -/
theorem Detached.happening (h : g.Sound) (hI : Inner M x g) (hD : Detached x g)
    (hk : k.resumes x = false) : Detached x (k.after g) := by
  intro e he
  obtain ⟨nx, hx, howner⟩ := hI.owned
  cases k with
  | taken phase id p => exact hD e (edges_modifyProperty g id p _ ▸ he)
  | restored phase id p os => exact hD e (edges_modifyProperty g id p _ ▸ he)
  | stored id p v => exact hD e (edges_modifyProperty g id p _ ▸ he)
  | deed d =>
    rcases d.mem_edges h he with he | hdraws
    · exact hD e he
    cases d with
    | assemble data => exact hdraws x nx hx
    | connect source o target i =>
      obtain ⟨n, hn, hpublic, hsource⟩ := hdraws
      rw [hsource]
      refine hI.sourceEnd_ne h hn fun hx' => ?_
      rw [hx', hx] at hn
      cases hn
      cases hpublic.symm.trans howner
    | connectInterior source o target i =>
      obtain ⟨n, hn, hsource⟩ := hdraws
      rw [hsource]
      exact hI.sourceEnd_ne h hn (of_decide_eq_false hk)
    | _ => exact hdraws.elim

/-- **A block for another node passes a detached node by.** -/
theorem Detached.renders?_eq_none (h : g.Sound) (hI : Inner M x g) (hD : Detached x g)
    (hid : id ≠ x) : g.renders? id x = none := by
  rw [renders?]
  split
  · next root ready _ _ hready _ _ =>
    refine if_neg fun hin => ?_
    obtain ⟨hindex, hside, -⟩ := prepare_eq_ok.mp hready
    obtain ⟨n, hn⟩ := (index_eq_ok.mp hindex).1
    cases (h.nested.sourceSide hn).symm.trans hside
    rcases ((h.prepared hready).scheduled.mp hin.1).cases_head with hroot | ⟨j, ⟨e, he, hs, -⟩, -⟩
    · exact hI.sourceEnd_ne h hn hid hroot.symm
    · exact hD e he hs
  · rfl

/-- **A detached node takes nothing in until it is called for.** -/
theorem Detached.intake_eq_nil {hs : List Happening} (h : g.Sound) (hI : Inner M x g)
    (hD : Detached x g) (halive : Throughout (Alive x) g hs) (hhs : ∀ k ∈ hs, k.resumes x = false) :
    intake x g hs = [] := by
  induction hs generalizing g with
  | nil => rfl
  | cons k hs ih =>
    obtain ⟨-, halive⟩ := throughout_cons.mp halive
    obtain ⟨hk, hhs⟩ := List.forall_mem_cons.mp hhs
    have hnone : k.intake x g = [] := Happening.intake_eq_nil fun id hid => by
      subst hid
      exact convolves?_eq_none (hD.renders?_eq_none h hI (of_decide_eq_false hk))
    rw [intake, hnone, List.nil_append]
    exact ih (h.happening k) (hI.happening h halive.start) (hD.happening h hI hk) halive hhs

/-! ## Multipanners -/

namespace Multipanner

variable {m : Multipanner} {nM nI nO nH nA : Node}

theorem Arranged.inner (h : Arranged M m g nM nI nO nH nA) : Inner M m.hrtf g := by
  obtain ⟨-, ⟨hOH, -⟩, -⟩ := nodup_inside.mp (List.nodup_cons.mp h.nodup).2
  exact ⟨⟨nH, h.hrtf, h.owned _ (by simp)⟩, nM, _, h.panner, h.ends, hOH⟩

/-- The panner for headphones is detached under every other strategy. -/
theorem Arranged.detached (h : Arranged M m g nM nI nO nH nA) (hne : m.strategy ≠ .hrtf) :
    Detached m.hrtf g := by
  obtain ⟨-, -, hHA⟩ := nodup_map_inside.mp h.nodup_index
  have hactive : m.active = m.amplitude := by
    rw [active]
    split
    · next hs => exact absurd hs hne
    · rfl
  intro e he hsource
  rw [h.wired.onlyFeed e he (.inl hsource), feed, hactive] at hsource
  exact hHA hsource.symm

theorem Tended.detached {u : Session} {strategy : Strategy} (h : Tended M m u)
    (hfind : find u.graph M = .ok { m with strategy }) (hne : strategy ≠ .hrtf) :
    Detached m.hrtf u.graph := by
  obtain ⟨strategy', nM, nI, nO, nH, nA, harranged⟩ := h.kept
  cases hfind.symm.trans harranged.inOrder.state
  exact harranged.detached hne

/-- **On its return to headphones a multipanner plays on from what it played when it left.**  While it
has another strategy its panner for headphones is detached.  The first block that the panner convolves
after that follows all that it took in before, and nothing else; and it might as well follow nothing
if the end of that, as far as the responses reach back, is silent. -/
theorem playsAfter_of_left {s t : Session} {label source : Label} (hs : s.Ran)
    (hdata : (Action.dataset source).run s = (.ok data, s))
    (hstep : s.step (.create label (.multipanner source)) = (.answer (.node M), t))
    (hm : find t.graph M = .ok m) :
    (∀ u strategy, Tended M m u → find u.graph M = .ok { m with strategy } → strategy ≠ .hrtf →
      Detached m.hrtf u.graph) ∧
    ∀ (steps : List Step) (before away back : List Happening) (id : NodeId),
      before ++ (away ++ (back ++ [.deed (.pull id)])) <+: (t.tale steps).happenings →
      Throughout (Alive m.hrtf) t.graph (before ++ (away ++ back)) →
      -- headphones are left, and not returned to,
      Detached m.hrtf (replay t.graph before) → (∀ k ∈ away, k.resumes m.hrtf = false) →
      -- and the block is the first since
      intake m.hrtf (replay t.graph (before ++ away)) back = [] → ∀ n n',
      (replay t.graph (before ++ (away ++ back))).convolves? id m.hrtf = some (n, n') →
      let taken := intake m.hrtf t.graph before
      PlaysAfter data taken n n' ∧
        ((∀ y ∈ taken.drop (taken.length + 1 - data.responseLength), y = 0) →
          PlaysAfter data [] n n') := by
  refine ⟨fun u strategy htended hfind hne => htended.detached hfind hne, ?_⟩
  intro steps before away back id _ halive hleft haway hback n n' hblock taken
  obtain ⟨hsound, q, owner, hq, inputs, outputs, hn⟩ := (Made.inside hs hdata hstep hm rfl).holds
  obtain ⟨_, _, _, _, _, _, harranged⟩ := (Tended.made hs hstep hm).kept
  have hinner : Inner M m.hrtf (replay t.graph before) :=
    Inner.replay hsound harranged.inner halive.left
  have hquiet : intake m.hrtf (replay t.graph before) away = [] :=
    hleft.intake_eq_nil (hsound.replay before) hinner halive.right.left haway
  have htaken : intake m.hrtf t.graph (before ++ (away ++ back)) = taken := by
    rw [intake_append, intake_append, ← replay_append, hquiet, hback, List.append_nil,
      List.append_nil]
  obtain ⟨-, ahead, -, htracks⟩ := HrtfPanner.tracks_of_new hq
  obtain ⟨n₀, hn₀, hR⟩ := (remembers_of_tracks htracks rfl).replay hsound hn halive
  rw [htaken] at hR
  have hplays := hR.playsAfter (hsound.replay _) hn₀ hblock
  exact ⟨hplays, hplays.of_silent⟩

/-! ### A round trip -/

/-- One direction, with an echo one sample later. -/
def oneLater : Dataset := ⟨44100, 0, 0, [1], 2, [0, 0x3f800000]⟩

/-- A player, and a dataset for a multipanner. -/
def readyToPlay (samples : Array Float32) : Session :=
  (((Session.new 44100 64).step (.load "ears" (.buffer (.fields oneLater)))).2.step
    (.create "player" (.samplePlayer samples))).2

/-- A multipanner is made. -/
def readyToPan (samples : Array Float32) : Session :=
  ((readyToPlay samples).step (.create "panner" (.multipanner "ears"))).2

/-- It plays a block of the player for headphones, one for loudspeakers, and again one for
headphones. -/
def roundTrip : List Step :=
  [.command (.connect "player" 0 "panner" 0), .command (.set "panner" .strategy (.int 0)),
    .process "panner" 1, .command (.set "panner" .strategy (.int 1)), .process "panner" 1,
    .command (.set "panner" .strategy (.int 0)), .process "panner" 1]

/-- A block that begins with an impulse. -/
def soundFirst : Array Float32 := #[1] ++ Array.replicate 63 0

/-- A block that ends with an impulse. -/
def soundLast : Array Float32 := Array.replicate 63 0 ++ #[1]

/-- Headphones are left after 38 happenings; the block for loudspeakers is one more, and ten others
switch back. -/
theorem view_roundTrip :
    let t := readyToPan soundFirst
    let hs := (t.tale roundTrip).happenings
    let taken := intake ⟨1, 0⟩ t.graph (hs.take 38)
    ((readyToPlay soundFirst).step (.create "panner" (.multipanner "ears"))).1.node? = some ⟨5, 0⟩ ∧
    (find t.graph ⟨5, 0⟩).toOption.map (fun m => (m.hrtf, m.strategy)) = some (⟨1, 0⟩, .stereo) ∧
    ((hs.drop 38).take 1).map Happening.root? = [some ⟨5, 0⟩] ∧
    (hs.drop 49).map Happening.root? = [some ⟨5, 0⟩] ∧
    Throughout (Alive ⟨1, 0⟩) t.graph (hs.take 38 ++ ((hs.drop 38).take 1 ++ (hs.drop 39).take 10)) ∧
    Detached ⟨1, 0⟩ (replay t.graph (hs.take 38)) ∧
    (∀ k ∈ (hs.drop 38).take 1, k.resumes ⟨1, 0⟩ = false) ∧
    intake ⟨1, 0⟩ (replay t.graph (hs.take 38 ++ (hs.drop 38).take 1)) ((hs.drop 39).take 10) = [] ∧
    ((replay t.graph (hs.take 38 ++ ((hs.drop 38).take 1 ++ (hs.drop 39).take 10))).convolves?
      ⟨5, 0⟩ ⟨1, 0⟩).isSome ∧
    taken.head? = some 1 ∧
    (∀ y ∈ taken.drop (taken.length + 1 - oneLater.responseLength), y = 0) := by
  decide +kernel

theorem playsAfter_roundTrip :
    let t := readyToPan soundFirst
    let hs := (t.tale roundTrip).happenings
    Detached ⟨1, 0⟩ t.graph ∧ ((hs.drop 38).take 1).map Happening.root? = [some ⟨5, 0⟩] ∧
    hs = hs.take 38 ++ ((hs.drop 38).take 1 ++ ((hs.drop 39).take 10 ++ [.deed (.pull ⟨5, 0⟩)])) ∧
    (intake ⟨1, 0⟩ t.graph (hs.take 38)).head? = some 1 ∧ ∃ n n',
      (replay t.graph (hs.take 38 ++ ((hs.drop 38).take 1 ++ (hs.drop 39).take 10))).convolves?
        ⟨5, 0⟩ ⟨1, 0⟩ = some (n, n') ∧ PlaysAfter oneLater [] n n' := by
  intro t hs
  obtain ⟨hnode, hm, hroot, hlast, halive, hleft, haway, hback, hblock, hfirst, hsilent⟩ :=
    view_roundTrip
  obtain ⟨⟨n, n'⟩, hblock⟩ := Option.isSome_iff_exists.mp hblock
  obtain ⟨m, hm, hseen⟩ := map_toOption_eq_some.mp hm
  obtain ⟨hhrtf, hstrategy⟩ := Prod.mk.inj hseen
  have hran : (readyToPlay soundFirst).Ran := .step (.step (.new 44100 64) _) _
  have hstep : (readyToPlay soundFirst).step (.create "panner" (.multipanner "ears"))
      = (.answer (.node ⟨5, 0⟩), readyToPan soundFirst) := by
    rw [readyToPan, ← Report.eq_of_node? hnode]
  have hpull : hs.drop 49 = [.deed (.pull ⟨5, 0⟩)] := by
    obtain ⟨k, ks, hdrop, hk, hks⟩ := List.map_eq_cons_iff.mp hlast
    rw [hdrop, ← Happening.eq_of_root? hk, List.map_eq_nil_iff.mp hks]
  have hsplit : hs = hs.take 38 ++ ((hs.drop 38).take 1 ++
      ((hs.drop 39).take 10 ++ [.deed (.pull ⟨5, 0⟩)])) := by
    have hten : (hs.drop 39).take 10 ++ hs.drop 49 = hs.drop 39 := by
      rw [← List.drop_drop (i := 10) (j := 39), List.take_append_drop]
    have hone : (hs.drop 38).take 1 ++ hs.drop 39 = hs.drop 38 := by
      rw [← List.drop_drop (i := 1) (j := 38), List.take_append_drop]
    rw [← hpull, hten, hone, List.take_append_drop]
  obtain ⟨hdetached, hplays⟩ := playsAfter_of_left hran rfl hstep hm
  have hstereo : find t.graph ⟨5, 0⟩ = .ok { m with strategy := .stereo } := by
    rw [← hstrategy]
    exact hm
  have hstart := hdetached t .stereo (.made hran hstep hm) hstereo (by decide)
  rw [hhrtf] at hplays hstart
  have hplays := hplays roundTrip _ _ _ ⟨5, 0⟩ ⟨[], (List.append_nil _).trans hsplit.symm⟩ halive
    hleft haway hback n n' hblock
  exact ⟨hstart, hroot, hsplit, hfirst, n, n', hblock, hplays.2 hsilent⟩

/-- What was played before headphones were left is heard when they are returned to: the player has
nothing left to play, and the first sample is the echo of the last one before. -/
theorem heardAgain_roundTrip :
    let after samples := (readyToPan samples).afterSteps roundTrip
    let fed samples := ((after samples).graph.nodeAt? 0).map fun n =>
      n.outputs.map fun b => b.toList.map Float32.toBits
    fed soundFirst = some [List.replicate 64 0] ∧ fed soundLast = some [List.replicate 64 0] ∧
      (after soundFirst).graph.firstSamples 4 = some [0, 0] ∧
      (after soundLast).graph.firstSamples 4 = some [0x3f800000, 0x3f800000] := by
  decide +kernel

end Multipanner

end SpatialAudio
