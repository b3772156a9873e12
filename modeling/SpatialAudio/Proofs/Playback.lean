import SpatialAudio.Graph.Pull
import SpatialAudio.Proofs.Assembly

/-!
# Proofs/Playback — what pulling a block changes

Whatever a node does to its blocks, it has as many of them afterwards (`length_gather`,
`process_ok`).  So a block leaves nodes in their places (`Node.Played`), except that an amplitude
panner may take on the layout of its map: pulling is a chain of such steps (`pull_eq_ok`), each of
which keeps a graph sound.
-/

namespace SpatialAudio

open Relation

/-! ## Blocks are kept in number -/

theorem Oscillator.length_process (o : Oscillator) (rate : Nat) (props : Properties)
    (outputs : List Block) : (o.process rate props outputs).2.length = outputs.length := by
  rw [process]
  split
  · rfl
  · exact List.length_map _

theorem SamplePlayer.length_process (p : SamplePlayer) (rate : Nat) (props : Properties)
    (outputs : List Block) : (p.process rate props outputs).2.length = outputs.length := by
  cases outputs with
  | nil => simp only [process]
  | cons out outputs => simp only [process, List.length_cons]

theorem NodeKind.length_passThrough (inputs outputs : List Block) :
    (passThrough inputs outputs).length = outputs.length := by
  induction outputs generalizing inputs with
  | nil => cases inputs <;> rfl
  | cons out outputs ih =>
    cases inputs with
    | nil => exact congrArg (· + 1) (ih [])
    | cons input inputs => exact congrArg (· + 1) (ih inputs)

/-- Steps that keep the number of blocks keep it in the end. -/
theorem length_foldl {α : Type} {f : List Block → α → List Block}
    (hf : ∀ blocks a, (f blocks a).length = blocks.length) (as : List α) (blocks : List Block) :
    (as.foldl f blocks).length = blocks.length := by
  induction as generalizing blocks with
  | nil => rfl
  | cons a as ih => rw [List.foldl_cons, ih, hf]

theorem AmplitudePanner.length_process (p : AmplitudePanner) (props : Properties)
    (inputs outputs : List Block) : (p.process props inputs outputs).length = outputs.length := by
  cases inputs with
  | nil => exact List.length_map _
  | cons input inputs =>
    have hpan : (p.map.pan (props.float .azimuth) input.toArray
        (outputs.map fun _ => Block.silent)).length = outputs.length := by
      rw [ChannelMap.pan, length_foldl fun _ _ => List.length_modify .., List.length_map]
    rw [process]
    split
    · exact hpan
    · exact (length_foldl (fun _ _ => List.length_modify ..) _ _).trans hpan

theorem HrtfPanner.length_process {p p' : HrtfPanner} {props : Properties}
    {inputs outputs outputs' : List Block} (h : p.process props inputs outputs = .ok (p', outputs')) :
    outputs'.length = outputs.length := by
  unfold process at h
  obtain ⟨p₁, -, h⟩ := bind_eq_ok.mp h
  split at h
  · cases h
    rfl
  · cases h
    rfl

/-- **A node keeps its type and the number of its outputs.** -/
theorem NodeKind.process_ok {k : NodeKind} {rate : Nat} {props : Properties}
    {inputs outputs : List Block} {rings : List Ring} {done : Processed}
    (h : k.process rate props inputs outputs rings = .ok done) :
    done.outputs.length = outputs.length ∧ done.kind.type = k.type ∧
      ∀ m, k = .multipanner m → done.kind = .multipanner m := by
  cases k with
  | sine o =>
    cases h
    exact ⟨o.length_process rate props outputs, rfl, fun m hm => nomatch hm⟩
  | samplePlayer p =>
    cases h
    exact ⟨p.length_process rate props outputs, rfl, fun m hm => nomatch hm⟩
  | gain =>
    cases h
    exact ⟨length_passThrough inputs outputs, rfl, fun m hm => nomatch hm⟩
  | amplitudePanner p =>
    cases h
    exact ⟨p.length_process props inputs outputs, rfl, fun m hm => nomatch hm⟩
  | hrtfPanner p =>
    obtain ⟨⟨p', outputs'⟩, hp, h⟩ := bind_eq_ok.mp h
    cases h
    exact ⟨HrtfPanner.length_process hp, rfl, fun m hm => nomatch hm⟩
  | multipanner p =>
    cases h
    exact ⟨rfl, rfl, fun m hm => hm⟩
  | ringSink s =>
    rw [process] at h
    split at h
    · obtain ⟨⟨s', ring'⟩, -, h⟩ := bind_eq_ok.mp h
      cases h
      exact ⟨rfl, rfl, fun m hm => nomatch hm⟩
    · cases h
      exact ⟨rfl, rfl, fun m hm => nomatch hm⟩

namespace Graph

variable {g g' : Graph} {i : Nat} {n : Node}

theorem length_mixAt (start : Nat) (sources channels : List Block) :
    (mixAt start sources channels).length = channels.length := by
  induction channels generalizing start sources with
  | nil => cases start <;> cases sources <;> rfl
  | cons c channels ih =>
    cases start with
    | zero =>
      cases sources with
      | nil => rfl
      | cons s sources => exact congrArg (· + 1) (ih 0 sources)
    | succ start => exact congrArg (· + 1) (ih start sources)

theorem length_mixEdge (g : Graph) (l : Layout) (inputs : List Block) (e : Edge) :
    (g.mixEdge l inputs e).length = inputs.length := by
  rw [mixEdge]
  split
  · split
    · exact length_mixAt ..
    · rfl
  · rfl

theorem length_gather (g : Graph) (i : Nat) (n : Node) :
    (g.gather i n).length = n.inputs.length := by
  rw [gather, length_foldl fun _ _ => length_mixEdge .., List.length_map]

theorem length_finish (props : Properties) (outputs : List Block) :
    (finish props outputs).length = outputs.length := by
  rw [finish]
  split <;> split <;> simp

end Graph

/-! ## Steps of a block -/

/-- What a block leaves of a node: its place, its type and the values of its properties; which of
them were stored is forgotten. -/
structure Node.Played (n n' : Node) : Prop extends n.Alike n' where
  type : n'.kind.type = n.kind.type
  panner : ∀ m, n.kind = .multipanner m → n'.kind = .multipanner m
  properties : n'.properties.clearModified = n.properties.clearModified

theorem Node.Played.refl (n : Node) : n.Played n := ⟨.refl n, rfl, fun _ h => h, rfl⟩

@[simp] theorem Properties.clearModified_clearModified (ps : Properties) :
    ps.clearModified.clearModified = ps.clearModified := by
  simp [clearModified]

namespace Graph

variable {g g' : Graph} {i : Nat} {n : Node}

/-- One step of pulling a block. -/
inductive PullStep (g g' : Graph) : Prop
  /-- Nodes did their work. -/
  | played (h : Within Node.Played g g')
  /-- An amplitude panner took on the layout of its map. -/
  | arranged (i : Nat) (n : Node) (q : AmplitudePanner) (hn : g.nodeAt? i = some n)
      (hk : n.kind = .amplitudePanner q) (h : g.applyLayoutAt i (mapLayout n.properties) = .ok g')

/-- Any number of steps. -/
abbrev Pulled : Graph → Graph → Prop := ReflTransGen PullStep

theorem pullStep_modifyAt {f : Node → Node} (hf : ∀ n, g.nodeAt? i = some n → n.Played (f n)) :
    PullStep g (g.modifyAt i f) := .played (within_modifyAt .refl hf)

theorem pullStep_books (g : Graph) (blocks : Nat) (faults : List Fault) (rings : List Ring) :
    PullStep g { g with blocks := blocks, faults := faults, rings := rings } :=
  .played ⟨rfl, rfl, rfl, rfl, rfl, fun _ => rfl, fun _ n h => ⟨n, h, .refl n⟩,
    fun _ n h => ⟨n, h, .refl n⟩⟩

/-- A panner asks for a layout only to be given the one of its map. -/
theorem propose_type (k : NodeKind) (ps : Properties) : (k.propose ps).1.type = k.type := by
  cases k with
  | amplitudePanner q =>
    rw [NodeKind.propose]
    split <;> rfl
  | _ => rfl

theorem propose_eq_some {k : NodeKind} {ps : Properties} {l : Layout}
    (h : (k.propose ps).2 = some l) :
    l = mapLayout ps ∧ ∃ q, (k.propose ps).1 = .amplitudePanner q := by
  cases k with
  | amplitudePanner q =>
    rw [NodeKind.propose] at h ⊢
    split at h
    · next hmod =>
      rw [if_pos hmod]
      cases h
      exact ⟨rfl, _, rfl⟩
    · cases h
  | _ => cases h

theorem played_propose (n : Node) :
    n.Played { n with kind := (n.kind.propose n.properties).1 } where
  toAlike := ⟨⟨rfl, rfl, rfl⟩, rfl, rfl⟩
  type := propose_type _ _
  panner m hm := by rw [hm]; rfl
  properties := rfl

theorem pulled_proposeAll {schedule : List Nat} {refused : Option (Nat × Error)}
    (h : proposeAll schedule g = .ok (g', refused)) : Pulled g g' := by
  induction schedule generalizing g with
  | nil =>
    cases h
    exact .refl
  | cons i rest ih =>
    rw [proposeAll] at h
    split at h
    · exact ih h
    · next n hn =>
      have hstep : PullStep g (g.modifyAt i fun m =>
          { m with kind := (n.kind.propose n.properties).1 }) := by
        refine pullStep_modifyAt fun m hm => ?_
        rw [hn] at hm
        cases hm
        exact played_propose n
      have hat : (g.modifyAt i fun m =>
          { m with kind := (n.kind.propose n.properties).1 }).nodeAt? i
            = some { n with kind := (n.kind.propose n.properties).1 } := by
        rw [nodeAt?_modifyAt, if_pos rfl, hn]
        rfl
      rcases hp : n.kind.propose n.properties with ⟨kind, wanted⟩
      rw [hp] at h hstep hat
      cases wanted with
      | none => exact .head hstep (ih h)
      | some l =>
        obtain ⟨rfl, q, hq⟩ := propose_eq_some (congrArg Prod.snd hp)
        rw [hp] at hq
        dsimp only at h
        split at h
        · next g₁ happly => exact .head hstep (.head (.arranged i _ q hat hq happly) (ih h))
        · cases h
          exact .single hstep
        · cases h

/-- An HRTF panner that is told that its direction changed plays on. -/
theorem within_markRecompute {id : NodeId} (hm : g.markRecompute id = .ok g') :
    Within Node.Played g g' := by
  obtain ⟨n, hn, hm⟩ := bind_eq_ok.mp hm
  obtain ⟨q, hq, hm⟩ := bind_eq_ok.mp hm
  cases hm
  refine within_modifyAt .refl fun n' hn' => ?_
  rw [nodeAt?_of_node hn] at hn'
  cases hn'
  cases hk : n.kind with
  | hrtfPanner q' =>
    refine ⟨⟨⟨rfl, rfl, rfl⟩, rfl, rfl⟩, by rw [hk]; rfl, fun k hkind => ?_, rfl⟩
    rw [hk] at hkind
    cases hkind
  | _ => rw [hk] at hq; cases hq

/-- **Processing a node is a step of a block.** -/
theorem pulled_processAt (h : g.processAt i = .ok g') : Pulled g g' := by
  rw [processAt] at h
  split at h
  · cases h
    exact .refl
  · next n hn =>
    split at h
    · cases h
      refine .single (pullStep_modifyAt fun m hm => ?_)
      rw [hn] at hm
      cases hm
      exact ⟨⟨⟨rfl, length_gather g i n, List.length_map _⟩, rfl, rfl⟩, rfl, fun _ h => h,
        Properties.clearModified_clearModified _⟩
    · obtain ⟨done, hdone, h⟩ := bind_eq_ok.mp h
      obtain ⟨hlength, htype, hpanner⟩ := NodeKind.process_ok hdone
      cases h
      refine .head (pullStep_modifyAt fun m hm => ?_) (.single (pullStep_books _ _ _ done.rings))
      rw [hn] at hm
      cases hm
      exact ⟨⟨⟨rfl, length_gather g i n, (length_finish _ _).trans hlength⟩, rfl, rfl⟩, htype,
        hpanner, Properties.clearModified_clearModified _⟩

theorem pulled_foldlM_processAt {schedule : List Nat}
    (h : schedule.foldlM processAt g = .ok g') : Pulled g g' := by
  induction schedule generalizing g with
  | nil =>
    cases h
    exact .refl
  | cons i rest ih =>
    rw [List.foldlM_cons] at h
    obtain ⟨g₁, h₁, h⟩ := bind_eq_ok.mp h
    exact (pulled_processAt h₁).trans (ih h)

theorem pulled_clearOwners (depth : Nat) (owner : Option NodeId) (g : Graph) :
    Pulled g (clearOwners depth g owner) := by
  induction depth generalizing g owner with
  | zero => exact .refl
  | succ depth ih =>
    cases owner with
    | none => exact .refl
    | some id =>
      rw [clearOwners]
      split
      · refine .head (pullStep_modifyAt fun m _ => ?_) (ih _ _)
        exact ⟨⟨⟨rfl, rfl, rfl⟩, rfl, rfl⟩, rfl, fun _ h => h,
          Properties.clearModified_clearModified _⟩
      · exact .refl

theorem pulled_clearAround (schedule : List Nat) (g : Graph) :
    Pulled g (schedule.foldl clearAround g) := by
  induction schedule generalizing g with
  | nil => exact .refl
  | cons i rest ih => exact (pulled_clearOwners _ _ g).trans (ih _)

theorem pulled_abandon (g : Graph) (root block culprit : Nat) (e : Error) :
    Pulled g (g.abandon root block culprit e) := by
  have hstep : PullStep g (g.modifyAt root fun n =>
      { n with outputs := n.outputs.map fun _ => Block.silent }) := by
    refine pullStep_modifyAt fun n _ => ?_
    exact ⟨⟨⟨rfl, rfl, List.length_map _⟩, rfl, rfl⟩, rfl, fun _ h => h, rfl⟩
  rw [abandon]
  split
  · exact .head hstep (.single (pullStep_books _ _ _ _))
  · exact .single hstep

theorem node_scheduleFor (g : Graph) (i : Nat) (x : NodeId) : (g.scheduleFor i).node x = g.node x := by
  rw [scheduleFor]
  split <;> rfl

theorem edges_scheduleFor (g : Graph) (i : Nat) : (g.scheduleFor i).edges = g.edges := by
  rw [scheduleFor]
  split <;> rfl

/-- A layout for a slot is one for its handle. -/
theorem applyLayout_handleAt {l : Layout} (hn : g.nodeAt? i = some n)
    (happly : g.applyLayoutAt i l = .ok g') : g.applyLayout (g.handleAt i) l = .ok g' := by
  have hindex : g.index (g.handleAt i) = .ok i :=
    index_eq_ok.mpr ⟨⟨n, node_handleAt.mpr hn⟩, rfl⟩
  rw [applyLayout, hindex]
  exact happly

/-- **A block is pulled in steps, from the source side of its node.** -/
theorem pull_eq_ok {id : NodeId} (h : g.pull id = .ok g') :
    ∃ root, (∃ n, g.node id = .ok n) ∧ g.sourceSide id.index = .ok root ∧
      Pulled (g.scheduleFor root) g' := by
  unfold pull at h
  obtain ⟨i, hi, h⟩ := bind_eq_ok.mp h
  obtain ⟨hn, rfl⟩ := index_eq_ok.mp (liftM_error_eq_ok.mp hi)
  obtain ⟨root, hroot, h⟩ := bind_eq_ok.mp h
  refine ⟨root, hn, liftM_error_eq_ok.mp hroot, ?_⟩
  obtain ⟨⟨g₁, refused⟩, hpropose, h⟩ := bind_eq_ok.mp h
  have hbegin : Pulled (g.scheduleFor root) g₁ :=
    .head (pullStep_books _ _ _ _) (pulled_proposeAll (liftM_abort_eq_ok.mp hpropose))
  cases refused with
  | some refused =>
    cases h
    exact hbegin.trans (pulled_abandon _ _ _ _ _)
  | none =>
    obtain ⟨g₂, hprocess, h⟩ := bind_eq_ok.mp h
    cases h
    exact (hbegin.trans (pulled_foldlM_processAt (liftM_abort_eq_ok.mp hprocess))).trans
      (pulled_clearAround _ _)

/-! ## Soundness -/

theorem Sound.pullStep (h : g.Sound) (hstep : PullStep g g') : g'.Sound := by
  cases hstep with
  | played hw =>
    refine h.within (fun hR => hR.toSameShape) hw (h.nested.transfer (fun hn => ?_) fun hn => ?_)
    · obtain ⟨n', hn', hp⟩ := hw.node_forth hn
      exact ⟨n', hn', hp.owner, hp.interior⟩
    · obtain ⟨n, hn, hp⟩ := hw.node_back hn
      exact ⟨n, hn, hp.owner, hp.interior⟩
  | arranged i n q hn hk happly => exact h.applyLayoutAt hn happly

theorem Sound.pulled (h : g.Sound) (hp : Pulled g g') : g'.Sound := by
  induction hp with
  | refl => exact h
  | tail _ hstep ih => exact ih.pullStep hstep

/-- **Pulling a block keeps a graph sound.** -/
theorem Sound.pull (h : g.Sound) {id : NodeId} (hp : g.pull id = .ok g') : g'.Sound := by
  obtain ⟨root, ⟨n, hn⟩, hroot, hpulled⟩ := pull_eq_ok hp
  rw [h.nested.sourceSide hn] at hroot
  cases hroot
  obtain ⟨m, hm⟩ := h.nested.exists_sourceEnd hn
  exact (h.scheduleFor hm).pulled hpulled

end Graph

end SpatialAudio
