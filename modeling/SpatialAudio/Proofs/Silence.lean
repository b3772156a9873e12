import SpatialAudio.Proofs.Admission
import SpatialAudio.Proofs.Maps
import SpatialAudio.Proofs.Tending

/-!
# Proofs/Silence — what a layout leaves in the blocks of a node

A node that is given another layout has new blocks, all of them silent, and they stay so until a block
processes the node (`Node.Silent.replay`): everything else that happens leaves blocks alone or
silences them.  A node that is given the layout it has keeps its blocks as they are (`Node.Rearranged`).

So a multipanner is silent after a change between strategies of different widths.  Between strategies
of one width its output stage is given the layout it has, and what the strategy before left there is
still to be read (`Multipanner.outputBlocks_of_setStrategy`).
-/

namespace SpatialAudio

open Relation SpatialAudio.Graph

variable {g g' : Graph} {x id : NodeId} {n n' : Node} {l : Layout} {k : Happening}
  {hs : List Happening}

/-! ## Silent nodes -/

namespace Node

/-- All blocks of the node are silent. -/
structure Silent (n : Node) : Prop where
  inputs : ∀ b ∈ n.inputs, b = Block.silent
  outputs : ∀ b ∈ n.outputs, b = Block.silent

/-- Two states of a node with the same blocks. -/
structure SameBlocks (n n' : Node) : Prop where
  inputs : n'.inputs = n.inputs
  outputs : n'.outputs = n.outputs

/-- `n'` is what the node `n` is under the layout `l`: silent, unless it had that layout. -/
structure Rearranged (n : Node) (l : Layout) (n' : Node) : Prop where
  layout : n'.layout = l
  silent : n.layout ≠ l → n'.Silent
  kept : n.layout = l → n.SameBlocks n'

theorem Silent.of_same (h : n.Silent) (hsame : n.SameBlocks n') : n'.Silent where
  inputs := hsame.inputs ▸ h.inputs
  outputs := hsame.outputs ▸ h.outputs

theorem silent_arrange (l : Layout) (n : Node) : (arrange l n).Silent where
  inputs _ hb := List.eq_of_mem_replicate hb
  outputs _ hb := List.eq_of_mem_replicate hb

theorem rearranged (l : Layout) (n : Node) : n.Rearranged l (rearrange l n) where
  layout := rearrange_layout l n
  silent hl := by
    rw [rearrange, if_neg hl]
    exact silent_arrange l n
  kept hl := by
    rw [rearrange, if_pos hl]
    exact ⟨rfl, rfl⟩

/-- It may change in all but its layout and blocks. -/
theorem Rearranged.of_same {n'' : Node} (h : n.Rearranged l n') (hl : n''.layout = n'.layout)
    (hsame : n'.SameBlocks n'') : n.Rearranged l n'' where
  layout := hl.trans h.layout
  silent hne := (h.silent hne).of_same hsame
  kept heq := ⟨hsame.inputs.trans (h.kept heq).inputs, hsame.outputs.trans (h.kept heq).outputs⟩

/-- A layout takes no silence away. -/
theorem Rearranged.silent_of_silent (h : n.Rearranged l n') (hsilent : n.Silent) : n'.Silent := by
  by_cases hl : n.layout = l
  · exact hsilent.of_same (h.kept hl)
  · exact h.silent hl

/-- A map that is staged makes no difference. -/
theorem rearranged_staged (q : AmplitudePanner) (l : Layout) (n : Node) :
    n.Rearranged l (rearrange l (staged q n)) :=
  have h := rearranged l (staged q n)
  ⟨h.layout, h.silent, fun hl => ⟨(h.kept hl).inputs, (h.kept hl).outputs⟩⟩

theorem Silent.obliged (h : n.Silent) : n.obliged.Silent := by
  rcases n.asks_or_obliged_eq with ⟨q, hasks⟩ | hself
  · rw [hasks.obliged]
    exact (rearranged_staged q _ n).silent_of_silent h
  · rwa [hself]

theorem Silent.silenced (h : n.Silent) : (silenced n).Silent where
  inputs := h.inputs
  outputs b hb := by
    obtain ⟨_, -, rfl⟩ := List.mem_map.mp hb
    rfl

end Node

/-! ## Until a block processes the node -/

namespace Graph

/-- A block for `id` is played, and `x` takes its turn in it. -/
def processes (g : Graph) (id x : NodeId) : Bool :=
  match g.prepare id, g.pull id with
  | .ok (_, ready, none), .ok _ => x.index ∈ ready.schedule
  | _, _ => false

theorem Sound.processes_of_leads (h : g.Sound) {root : Nat} {ready : Graph}
    (hready : g.prepare id = .ok (root, ready, none)) (hpull : g.pull id = .ok g')
    (hleads : Leads g.edges x.index root) : g.processes id x = true := by
  have hscheduled := (h.prepared hready).scheduled.mpr hleads
  rw [processes, hready, hpull]
  exact decide_eq_true hscheduled

/-- A block that is given up leaves silent nodes silent. -/
theorem Sound.silent_refused (h : g.Sound) {root culprit : Nat} {ready : Graph} {e : Error}
    (hready : g.prepare id = .ok (root, ready, some (culprit, e))) (hn : g.node x = .ok n)
    (hsilent : n.Silent) (hn' : ((Happening.deed (.pull id)).after g).node x = .ok n') :
    n'.Silent := by
  obtain ⟨served, hrefused⟩ := h.refused_of_prepare hready
  rw [Happening.after_pull (pull_of_refused hready)] at hn'
  have hview := nodeAt?_of_node hn'
  rw [nodeAt?_abandon, hrefused.nodes, nodeAt?_of_node hn, Option.map_some, Option.map_some] at hview
  have hasked : (if x.index ∈ served then n.obliged else
      if x.index = culprit then n.asking else n).Silent := by
    split
    · exact hsilent.obliged
    · split
      · exact hsilent.of_same ⟨rfl, rfl⟩
      · exact hsilent
  rw [← Option.some.inj hview]
  split
  · exact hasked.silenced
  · exact hasked

/-- So does a block in which the node takes no turn. -/
theorem Sound.silent_pull (h : g.Sound) (hn : g.node x = .ok n) (hsilent : n.Silent)
    (hno : g.processes id x = false)
    (hn' : ((Happening.deed (.pull id)).after g).node x = .ok n') : n'.Silent := by
  rcases Happening.same_or_touches h _ hn hn' with rfl | ⟨⟨g', hpull⟩, hfate⟩
  · exact hsilent
  cases hfate with
  | @refused root ready refusal hready _ =>
    obtain ⟨culprit, e⟩ := refusal
    exact h.silent_refused hready hn hsilent hn'
  | turn hready hleads _ _ =>
    cases (h.processes_of_leads hready hpull hleads).symm.trans hno
  | around _ _ _ hunmarked =>
    subst hunmarked
    exact hsilent.of_same ⟨rfl, rfl⟩
  | beside _ _ _ hsame =>
    subst hsame
    exact hsilent

theorem silent_recomputeMap (hn : g.node x = .ok n) (hsilent : n.Silent)
    (hn' : ((Happening.deed (.recomputeMap x)).after g).node x = .ok n') : n'.Silent := by
  change ((Graph.recomputeMap x).run g).2.node x = .ok n' at hn'
  by_cases hex : ∃ m q, g.node x = .ok m ∧ m.kind = .amplitudePanner q
  · obtain ⟨m, q, hm, hq⟩ := hex
    cases hn.symm.trans hm
    rcases hrun : (Graph.recomputeMap x).run g with ⟨_ | _, g'⟩
    · rw [node_of_recomputeMap_error hn hq (congrArg Prod.fst hrun), node_modifyAt _ hn,
        if_pos rfl] at hn'
      cases hn'
      exact hsilent.of_same ⟨rfl, rfl⟩
    · obtain ⟨m, q', hm, -, rfl⟩ := node_of_recomputeMap hrun
      cases hn.symm.trans hm
      rw [hrun, node_modifyAt _ hn, if_pos rfl] at hn'
      cases hn'
      exact (Node.rearranged_staged q' _ n).silent_of_silent hsilent
  · obtain ⟨e, herror⟩ := run_recomputeMap_of_not fun m q hm hq => hex ⟨m, q, hm, hq⟩
    rw [herror] at hn'
    cases hn.symm.trans hn'
    exact hsilent

end Graph

namespace Happening

/-- The happening is a block that is played and in which `x` takes its turn. -/
def processes (g : Graph) (x : NodeId) : Happening → Bool
  | deed (.pull id) => g.processes id x
  | _ => false

/-- **A silent node stays silent, unless a block processes it.** -/
theorem silent (h : g.Sound) (k : Happening) (hn : g.node x = .ok n) (hsilent : n.Silent)
    (hno : k.processes g x = false) (hn' : (k.after g).node x = .ok n') : n'.Silent := by
  rcases k.same_or_touches h hn hn' with rfl | htouched
  · exact hsilent
  cases k with
  | taken | restored | stored =>
    obtain ⟨-, rfl⟩ := htouched
    exact hsilent.of_same ⟨rfl, rfl⟩
  | deed d =>
    cases d with
    | arrange id l =>
      obtain ⟨-, rfl⟩ := htouched
      exact (n.rearranged l).silent_of_silent hsilent
    | observe phase id p o =>
      obtain ⟨-, rfl⟩ := htouched
      exact hsilent.of_same ⟨rfl, rfl⟩
    | recomputeMap id =>
      obtain ⟨rfl, -⟩ := htouched
      exact silent_recomputeMap hn hsilent hn'
    | markRecompute id =>
      obtain ⟨-, q, -, rfl⟩ := htouched
      exact hsilent.of_same ⟨rfl, rfl⟩
    | adopt id strategy =>
      obtain ⟨-, m, -, rfl⟩ := htouched
      exact hsilent.of_same ⟨rfl, rfl⟩
    | pull id => exact h.silent_pull hn hsilent hno hn'
    | _ => exact htouched.elim

end Happening

/-- A block processes the node in the course of a history. -/
def processed (x : NodeId) : Graph → List Happening → Bool
  | _, [] => false
  | g, k :: hs => k.processes g x || processed x (k.after g) hs

/-- **It stays silent in the course of every history in which no block processes it.** -/
theorem Node.Silent.replay (hsilent : n.Silent) (h : g.Sound) (hn : g.node x = .ok n)
    (halive : Throughout (Alive x) g hs) (hno : processed x g hs = false) :
    ∃ n', (replay g hs).node x = .ok n' ∧ n'.Silent := by
  induction hs generalizing g n with
  | nil => exact ⟨n, hn, hsilent⟩
  | cons k hs ih =>
    obtain ⟨-, halive⟩ := throughout_cons.mp halive
    obtain ⟨hk, hno⟩ := Bool.or_eq_false_iff.mp hno
    obtain ⟨n₁, hn₁⟩ := contains_iff.mp halive.start
    exact ih (k.silent h hn hsilent hk hn₁) (h.happening k) hn₁ halive hno

/-! ## Layouts that are given -/

namespace Graph

/-- In `g'` the node `x`, which was `n`, is under the layout `l`.  If it had another, it is silent from
then on until a block processes it. -/
structure Silences (g' : Graph) (x : NodeId) (n : Node) (l : Layout) : Prop where
  node : ∃ n', g'.node x = .ok n' ∧ n.Rearranged l n'
  stays : n.layout ≠ l → ∀ hs, Throughout (Alive x) g' hs → processed x g' hs = false →
    ∃ n', (replay g' hs).node x = .ok n' ∧ n'.Silent

theorem Sound.silences (h : g'.Sound) (hn' : g'.node x = .ok n') (hr : n.Rearranged l n') :
    g'.Silences x n l where
  node := ⟨n', hn', hr⟩
  stays hl _ halive hno := (hr.silent hl).replay h hn' halive hno

/-- On demand. -/
theorem Sound.silences_applyLayout (h : g.Sound) (hn : g.node x = .ok n)
    (happly : g.applyLayout x l = .ok g') : g'.Silences x n l := by
  obtain ⟨m, hm, hw⟩ := h.exists_applyLayout happly
  cases hn.symm.trans hm
  exact hw.sound.silences hw.self (n.rearranged l)

/-- With a map that is rebuilt. -/
theorem Sound.silences_recomputeMap (h : g.Sound) (hn : g.node x = .ok n)
    (hrun : (Graph.recomputeMap x).run g = (.ok (), g')) :
    g'.Silences x n (mapLayout n.properties) := by
  have hsound : ((Graph.recomputeMap x).run g).2.Sound := h.happening (.deed (.recomputeMap x))
  rw [hrun] at hsound
  obtain ⟨m, q, hm, -, rfl⟩ := node_of_recomputeMap hrun
  cases hn.symm.trans hm
  exact hsound.silences (by rw [node_modifyAt _ hn, if_pos rfl]) (n.rearranged_staged q _)

end Graph

/-! ## Multipanners -/

namespace Multipanner

variable {M active : NodeId} {m : Multipanner} {strategy : Strategy} {s t : Session}
  {v : PropertyValue} {nM nI nO nH nA : Node}

/-- The first part of a transition: both panners are taken off the output stage, and the one that
becomes active is set up. -/
def prepare (set : Setter) (m : Multipanner) (strategy : Strategy) : Action NodeId := do
  .change fun g => g.disconnectInterior m.hrtf 0
  .change fun g => g.disconnectInterior m.amplitude 0
  match strategy with
  | .hrtf => pure m.hrtf
  | _ => do
    configureStandardMap set m.amplitude strategy.channels
    .onGraph (Graph.recomputeMap m.amplitude)
    pure m.amplitude

theorem transition_eq (set : Setter) (M : NodeId) (strategy : Strategy) :
    transition set M strategy = (do
      let m ← .read fun g => find g M
      let active ← prepare set m strategy
      conclude M m strategy active) := by
  rw [transition]
  refine bind_congr fun m => ?_
  cases strategy <;> simp only [prepare, conclude, bind_assoc, pure_bind]

/-- The second part gives the output stage its layout; the rest leaves its blocks alone. -/
theorem rearranged_of_conclude (hrun : (conclude M m strategy active).run s = (.ok (), t)) :
    ∃ n n' w, s.graph.outputCount active = .ok w ∧ s.graph.node m.output = .ok n ∧
      t.graph.node m.output = .ok n' ∧ n.Rearranged (.symmetric w) n' := by
  obtain ⟨w, s₁, hwidth, hgiven⟩ := run_bind_eq_ok.mp hrun
  obtain ⟨hwidth, rfl⟩ := run_read_eq_ok.mp hwidth
  obtain ⟨_, s₂, hlaid, hattached⟩ := run_bind_eq_ok.mp hgiven
  obtain ⟨_, s₃, hjoined, hadopted⟩ := run_bind_eq_ok.mp hattached
  obtain ⟨g₂, happly, rfl⟩ := run_update_eq_ok.mp hlaid
  obtain ⟨g₃, hconnect, rfl⟩ := run_change_eq_ok.mp hjoined
  obtain ⟨g₄, hadopt, rfl⟩ := run_change_eq_ok.mp hadopted
  obtain ⟨n, hn, rfl⟩ := eq_of_applyLayout happly
  have hn₃ : g₃.node m.output = .ok (rearrange (.symmetric w) n) := by
    rw [node_connectAt (connectInterior_eq_ok.mp hconnect).2.2, node_modifyAt _ hn, if_pos rfl]
  have hr := n.rearranged (.symmetric w)
  -- taking on the strategy changes the state of the multipanner alone
  obtain ⟨k, hk, hadopt⟩ := bind_eq_ok.mp hadopt
  obtain ⟨nM, hM, -⟩ := find_eq_ok.mp hk
  cases hadopt
  by_cases hself : m.output = M
  · rw [← hself] at hM ⊢
    cases hn₃.symm.trans hM
    exact ⟨n, _, w, hwidth, hn, (node_modifyAt _ hn₃ _).trans (if_pos rfl),
      hr.of_same rfl ⟨rfl, rfl⟩⟩
  · exact ⟨n, _, w, hwidth, hn, (node_modifyAt _ hM _).trans ((if_neg hself).trans hn₃), hr⟩

/-- **A transition ends with the output stage under the layout that the active panner needs.** -/
theorem silences_transition {depth : Nat} (h : s.graph.Sound) (hm : find s.graph M = .ok m)
    (hrun : (transition (change depth) M strategy).run s = (.ok (), t)) :
    ∃ active s₁ n w, (prepare (change depth) m strategy).run s = (.ok active, s₁) ∧
      s₁.graph.outputCount active = .ok w ∧ s₁.graph.node m.output = .ok n ∧
      t.graph.Silences m.output n (.symmetric w) := by
  have hsound : ((transition (change depth) M strategy).run s).2.graph.Sound := by
    rw [← run_transitionPlan, toldBy_plan (toldBy_change depth [])]
    exact h.replay _
  rw [hrun] at hsound
  rw [transition_eq, run_bind_ok (run_read_ok hm)] at hrun
  obtain ⟨active, s₁, hprepare, hconclude⟩ := run_bind_eq_ok.mp hrun
  obtain ⟨n, n', w, hwidth, hn, hn', hr⟩ := rearranged_of_conclude hconclude
  exact ⟨active, s₁, n, w, hprepare, hwidth, hn, hsound.silences hn' hr⟩

/-! ### Tended multipanners -/

/-- The blocks of a multipanner are those of its output stage. -/
theorem Arranged.outputBlocks (h : Arranged M m g nM nI nO nH nA) :
    g.outputBlocks M = .ok nO.outputs := by
  have hside : g.sourceSide M.index = .ok m.output.index := by
    rw [h.sound.nested.sourceSide h.panner, Node.sourceEnd, h.ends]
  rw [Graph.outputBlocks, index_eq_ok.mpr ⟨⟨nM, h.panner⟩, rfl⟩]
  refine bind_eq_ok.mpr ⟨M.index, rfl, bind_eq_ok.mpr ⟨_, hside, ?_⟩⟩
  rw [nodeAt?_of_node h.output]
  rfl

theorem outputs_rearrange_symmetric {w c : Nat} (hw : n.layout = .symmetric w) :
    (rearrange (.symmetric c) n).outputs
      = if w = c then n.outputs else List.replicate c Block.silent := by
  by_cases hwc : w = c
  · subst hwc
    rw [if_pos rfl, ((n.rearranged _).kept hw).outputs]
  · have hne : n.layout ≠ .symmetric c := by
      rw [hw]
      exact fun heq => hwc (congrArg Layout.inputs heq)
    rw [if_neg hwc, rearrange, if_neg hne]
    rfl

/-- **After a change of the strategy a multipanner is silent if its width changed, and else has the
blocks that it had.** -/
theorem outputBlocks_of_setStrategy (h : Tended M m s)
    (hset : (Session.set M .strategy v).run s = (.ok (), t)) :
    ∃ (old new : Strategy) (blocks : List Block),
      find s.graph M = .ok { m with strategy := old } ∧ v = .int new.toInt ∧
      s.graph.outputBlocks M = .ok blocks ∧ t.graph.outputBlocks M
        = .ok (if old.channels = new.channels then blocks
            else List.replicate new.channels Block.silent) := by
  obtain ⟨old, nM, nI, nO, nH, nA, h⟩ := h.kept
  obtain ⟨run, set, hrun, hplain, heq⟩ := exists_run_set s M .strategy v
  rw [heq] at hset
  by_cases hadmitted : ∃ new : Strategy, v = .int new.toInt ∧ Accepts m s.graph new.channels
  · obtain ⟨new, rfl, hacc⟩ := hadmitted
    obtain ⟨g', hok, nM', nA', h'⟩ := h.run_setStrategy_output hrun (.inr hplain) hacc
    cases hset.symm.trans hok
    refine ⟨old, new, nO.outputs, find_eq_ok.mpr ⟨nM, h.panner, h.kind⟩, rfl, h.outputBlocks, ?_⟩
    rw [h'.outputBlocks, outputs_rearrange_symmetric h.outputLayout]
  · obtain ⟨e, hrefused⟩ := h.run_setStrategy_refused hrun hadmitted
    cases hset.symm.trans hrefused

end Multipanner

/-! ## Reachable graphs -/

/-- **A node that is given another layout is silent until a block processes it, and one that is given
the layout it has keeps its blocks; so a multipanner is silent after a change between strategies of
different widths, and keeps its blocks after one between strategies of one width.** -/
theorem silences_of_reachable {s : Session} (h : s.Reachable) :
    (∀ x n, s.graph.node x = .ok n →
      (∀ l g', s.graph.applyLayout x l = .ok g' → g'.Silences x n l) ∧
      (∀ e slot g', (Graph.edit x e).run s.graph = (.ok slot, g') →
        g'.Silences x n (e.edited n.layout)) ∧
      ∀ g', (Graph.recomputeMap x).run s.graph = (.ok (), g') →
        g'.Silences x n (mapLayout n.properties)) ∧
    (∀ M m strategy depth t, Multipanner.find s.graph M = .ok m →
      (Multipanner.transition (change depth) M strategy).run s = (.ok (), t) →
      ∃ active s₁ n w,
        (Multipanner.prepare (change depth) m strategy).run s = (.ok active, s₁) ∧
        s₁.graph.outputCount active = .ok w ∧ s₁.graph.node m.output = .ok n ∧
        t.graph.Silences m.output n (.symmetric w)) ∧
    ∀ M m v t, Multipanner.Tended M m s → (Session.set M .strategy v).run s = (.ok (), t) →
      ∃ (old new : Strategy) (blocks : List Block),
        Multipanner.find s.graph M = .ok { m with strategy := old } ∧ v = .int new.toInt ∧
        s.graph.outputBlocks M = .ok blocks ∧ t.graph.outputBlocks M
          = .ok (if old.channels = new.channels then blocks
              else List.replicate new.channels Block.silent) := by
  have hs := h.sound
  refine ⟨fun x n hn => ⟨fun l g' happly => hs.silences_applyLayout hn happly,
    fun e slot g' hedit => ?_, fun g' hrun => hs.silences_recomputeMap hn hrun⟩,
    fun M m strategy depth t hm hrun => Multipanner.silences_transition hs hm hrun,
    fun M m v t htended hset => Multipanner.outputBlocks_of_setStrategy htended hset⟩
  obtain ⟨-, -, happly⟩ := (run_edit_eq_ok hn).mp hedit
  exact hs.silences_applyLayout hn happly

/-! ### A multipanner that sounds -/

/-- A loaded set of one response, and a player of one block. -/
def playerAndEars : Session :=
  let s := ((Session.new 44100 64).step
    (.load "ears" (.buffer (.fields ⟨44100, 0, 0, [1], 1, [0x3f800000]⟩)))).2
  (s.step (.create "player" (.samplePlayer (Array.replicate 64 1)))).2

/-- A multipanner that is fed by the player. -/
def fedPanner : Session :=
  let s := (playerAndEars.step (.create "panner" (.multipanner "ears"))).2
  (s.step (.command (.connect "player" 0 "panner" 0))).2

/-- It plays one block in stereo. -/
def heardInStereo : Session := (fedPanner.step (.process "panner" 1)).2

/-- It plays one block for headphones. -/
def heardOnHeadphones : Session :=
  ((fedPanner.step (.command (.set "panner" .strategy (.int 0)))).2.step (.process "panner" 1)).2

theorem reachable_heardInStereo : heardInStereo.Reachable :=
  .step (.step (.step (.step (.step (.new 44100 64) _) _) _) _) _

theorem Multipanner.exists_tended_heardInStereo : ∃ m, Tended ⟨5, 0⟩ m heardInStereo := by
  have hd : (Action.dataset "ears").run playerAndEars
      = (.ok ⟨44100, 0, 0, [1], 1, [0x3f800000]⟩, playerAndEars) := rfl
  have hok : (HrtfPanner.new ⟨44100, 0, 0, [1], 1, [0x3f800000]⟩).isOk = true := by decide +kernel
  obtain ⟨q, hq⟩ := isOk_iff.mp hok
  have hs : playerAndEars.Ran := .step (.step (.new 44100 64) _) _
  obtain ⟨M, m, g', hstep, -, hfind, -⟩ := step_create hs hd hq "panner"
  have hM : (playerAndEars.step (.create "panner" (.multipanner "ears"))).1.node? = some ⟨5, 0⟩ := by
    decide +kernel
  rw [hstep] at hM
  cases hM
  have hmade : Tended ⟨5, 0⟩ m (playerAndEars.step (.create "panner" (.multipanner "ears"))).2 := by
    rw [hstep]
    exact .made hs hstep hfind
  exact ⟨m, .step (.step hmade rfl (by decide +kernel)) rfl (by decide +kernel)⟩

/-- The player can be given room for another output, and the panner a strategy of another width. -/
theorem view_heardInStereo :
    (heardInStereo.graph.node ⟨0, 0⟩).toOption.map Node.layout = some .source ∧
    (Multipanner.find heardInStereo.graph ⟨5, 0⟩).toOption.map Multipanner.strategy = some .stereo ∧
    ((Graph.edit ⟨0, 0⟩ (.resize 0 2)).run heardInStereo.graph).1.toOption = some none ∧
    ((Session.set ⟨5, 0⟩ .strategy (.int 2)).run heardInStereo).1.toOption = some () := by
  decide +kernel

/-- The player is silent until a block processes it, and so is the panner on all of its channels. -/
theorem silences_heardInStereo :
    (∃ n g', heardInStereo.graph.node ⟨0, 0⟩ = .ok n ∧ n.layout = .source ∧
      (Graph.edit ⟨0, 0⟩ (.resize 0 2)).run heardInStereo.graph = (.ok none, g') ∧
      ∀ hs, Throughout (Alive ⟨0, 0⟩) g' hs → processed ⟨0, 0⟩ g' hs = false →
        ∃ n', (replay g' hs).node ⟨0, 0⟩ = .ok n' ∧ n'.Silent) ∧
    ∃ t, (Session.set ⟨5, 0⟩ .strategy (.int 2)).run heardInStereo = (.ok (), t) ∧
      t.graph.outputBlocks ⟨5, 0⟩ = .ok (List.replicate 6 Block.silent) := by
  obtain ⟨hlayout, hstrategy, hresize, hwide⟩ := view_heardInStereo
  obtain ⟨n, hn, hl⟩ := map_toOption_eq_some.mp hlayout
  obtain ⟨m, htended⟩ := Multipanner.exists_tended_heardInStereo
  obtain ⟨hgiven, -, hset⟩ := silences_of_reachable reachable_heardInStereo
  constructor
  · obtain ⟨-, hedits, -⟩ := hgiven _ n hn
    rcases hedit : (Graph.edit ⟨0, 0⟩ (.resize 0 2)).run heardInStereo.graph with ⟨f | slot, g'⟩
    · rw [hedit] at hresize
      cases hresize
    · rw [hedit] at hresize
      cases hresize
      refine ⟨n, g', hn, hl, rfl, (hedits _ _ _ hedit).stays ?_⟩
      rw [hl]
      decide
  · rcases hrun : (Session.set ⟨5, 0⟩ .strategy (.int 2)).run heardInStereo with ⟨f | _, t⟩
    · rw [hrun] at hwide
      cases hwide
    · obtain ⟨old, new, blocks, hfind, hv, -, hnew⟩ := hset _ m _ t htended hrun
      obtain ⟨k, hk, hstereo⟩ := map_toOption_eq_some.mp hstrategy
      cases hk.symm.trans hfind
      obtain rfl : old = .stereo := hstereo
      obtain rfl : new = .surround51 := by cases new <;> cases hv; rfl
      exact ⟨t, rfl, hnew⟩

/-- The first sample of every block of a list. -/
def firstBits (blocks : List Block) : List (Option UInt32) :=
  blocks.map fun b => b.toList.head?.map Float32.toBits

/-- A block that begins with a sound is not silent. -/
theorem exists_ne_silent {blocks : List Block} {rest : List (Option UInt32)}
    (h : firstBits blocks = some 0x3f800000 :: rest) : ∃ b ∈ blocks, b ≠ Block.silent := by
  obtain ⟨b, bs, rfl, hb, -⟩ := List.map_eq_cons_iff.mp h
  refine ⟨b, List.mem_cons_self, ?_⟩
  rintro rfl
  exact absurd hb (by decide +kernel)

/-- The player keeps its block under its layout, and the panner in stereo what it played for
headphones. -/
theorem view_heardOnHeadphones :
    ((heardOnHeadphones.graph.applyLayout ⟨0, 0⟩ .source).toOption.bind
      fun g => (g.node ⟨0, 0⟩).toOption).map (firstBits ∘ Node.outputs) = some [some 0x3f800000] ∧
    ((Session.set ⟨5, 0⟩ .strategy (.int 1)).run heardOnHeadphones).1.toOption = some () ∧
    (((Session.set ⟨5, 0⟩ .strategy (.int 1)).run heardOnHeadphones).2.graph.outputBlocks
      ⟨5, 0⟩).toOption.map firstBits = some [some 0x3f800000, some 0x3f800000] := by
  decide +kernel

/-- A player that is given the layout that it has, and the panner under another strategy of the same
width, still have the blocks that were played before. -/
theorem heardStill_heardOnHeadphones :
    (∃ g' n', heardOnHeadphones.graph.applyLayout ⟨0, 0⟩ .source = .ok g' ∧
      g'.node ⟨0, 0⟩ = .ok n' ∧ ∃ b ∈ n'.outputs, b ≠ Block.silent) ∧
    ∃ t blocks, (Session.set ⟨5, 0⟩ .strategy (.int 1)).run heardOnHeadphones = (.ok (), t) ∧
      t.graph.outputBlocks ⟨5, 0⟩ = .ok blocks ∧ ∃ b ∈ blocks, b ≠ Block.silent := by
  obtain ⟨hplayer, hok, hpanner⟩ := view_heardOnHeadphones
  constructor
  · cases happly : heardOnHeadphones.graph.applyLayout ⟨0, 0⟩ .source with
    | error f =>
      rw [happly] at hplayer
      cases hplayer
    | ok g' =>
      rw [happly] at hplayer
      obtain ⟨n', hn', hfirst⟩ := map_toOption_eq_some.mp hplayer
      exact ⟨g', n', rfl, hn', exists_ne_silent hfirst⟩
  · rcases hrun : (Session.set ⟨5, 0⟩ .strategy (.int 1)).run heardOnHeadphones with ⟨f | _, t⟩
    · rw [hrun] at hok
      cases hok
    · rw [hrun] at hpanner
      obtain ⟨blocks, hblocks, hfirst⟩ := map_toOption_eq_some.mp hpanner
      exact ⟨t, blocks, rfl, hblocks, exists_ne_silent hfirst⟩

end SpatialAudio
