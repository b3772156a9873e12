import SpatialAudio.Proofs.Dataflow

/-!
# Proofs/Freshness — what a block's outputs depend on

Two graphs differ only in what their blocks hold if they are equal once all blocks are silenced
(`hush`).  Nodes ask for the same layouts in both, so both are prepared alike (`prepare_hush`).
From there on a node's outputs depend on its old ones exactly as far as its kind does not write
them: oscillators, gains and amplitude panners write all of their outputs, a sample player the
first, an HRTF panner the first two, all others none (`written`).  What is not written is held over,
and gain and offset are applied to it again.
-/

namespace SpatialAudio

open Relation

/-- The node with all of its blocks silent. -/
def Node.hush (n : Node) : Node :=
  { n with
    inputs := n.inputs.map fun _ => Block.silent
    outputs := n.outputs.map fun _ => Block.silent }

namespace Graph

/-- The graph with all blocks of its nodes silent. -/
def hush (g : Graph) : Graph :=
  { g with slots := g.slots.map fun s => { s with node := s.node.map Node.hush } }

variable {g g' : Graph} {i : Nat} {n n' : Node} {id : NodeId}

/-! ## Preparing a block without looking into blocks -/

@[simp] theorem edges_hush (g : Graph) : g.hush.edges = g.edges := rfl

@[simp] theorem length_hush (g : Graph) : g.hush.slots.length = g.slots.length := List.length_map _

@[simp] theorem nodeAt?_hush (g : Graph) (i : Nat) :
    g.hush.nodeAt? i = (g.nodeAt? i).map Node.hush := by
  rw [nodeAt?, hush, List.getElem?_map, nodeAt?]
  cases g.slots[i]? <;> rfl

@[simp] theorem handleAt_hush (g : Graph) (i : Nat) : g.hush.handleAt i = g.handleAt i := by
  rw [handleAt, hush, List.getElem?_map, handleAt]
  cases g.slots[i]? <;> rfl

@[simp] theorem layoutAt_hush (g : Graph) (i : Nat) : g.hush.layoutAt i = g.layoutAt i := by
  rw [layoutAt, nodeAt?_hush, layoutAt, Option.map_map]
  rfl

theorem node_hush (g : Graph) (id : NodeId) : g.hush.node id = (g.node id).map Node.hush := by
  rw [node, hush, List.getElem?_map, node]
  rcases g.slots[id.index]? with _ | ⟨generation, _ | n⟩
  · rfl
  · rfl
  · dsimp only [Option.map_some]
    split <;> rfl

@[simp] theorem index_hush (g : Graph) (id : NodeId) : g.hush.index id = g.index id := by
  rw [index, node_hush, index]
  cases g.node id <;> rfl

@[simp] theorem sourceSide_hush (g : Graph) (i : Nat) : g.hush.sourceSide i = g.sourceSide i := by
  rw [sourceSide, sourceSide, length_hush]
  generalize g.slots.length = depth
  induction depth generalizing i with
  | zero => rfl
  | succ depth ih =>
    rw [redirect, redirect, nodeAt?_hush]
    cases g.nodeAt? i with
    | none => rfl
    | some n =>
      simp only [Option.map_some, Option.bind_some, index_hush, ih]
      rfl

theorem hush_hush (g : Graph) : g.hush.hush = g.hush := by
  have hnode : ∀ n : Node, n.hush.hush = n.hush := fun n => by simp [Node.hush]
  simp [hush, Function.comp_def, hnode]

theorem modifyAt_hush {f : Node → Node} (hf : ∀ n, (f n).hush = f n.hush) (g : Graph) (i : Nat) :
    g.hush.modifyAt i f = (g.modifyAt i f).hush := by
  simp only [modifyAt, hush]
  congr 1
  refine List.ext_getElem? fun j => ?_
  simp only [List.getElem?_modify, List.getElem?_map]
  split
  · rcases g.slots[j]? with _ | ⟨generation, _ | n⟩
    · rfl
    · rfl
    · simp [hf]
  · rcases g.slots[j]? with _ | ⟨generation, _ | n⟩ <;> rfl

theorem scheduleFor_hush (g : Graph) (root : Nat) :
    g.hush.scheduleFor root = (g.scheduleFor root).hush := by
  have horder : g.hush.pullOrder root = g.pullOrder root := by
    rw [pullOrder, pullOrder, length_hush]
    rfl
  by_cases hroot : g.root = some root
  · rw [scheduleFor, if_pos (show g.hush.root = some root from hroot), scheduleFor, if_pos hroot]
  · rw [scheduleFor, if_neg (show ¬ g.hush.root = some root from hroot), scheduleFor, if_neg hroot,
      horder]
    rfl

theorem begun_hush (g : Graph) (root : Nat) : g.hush.begun root = (g.begun root).hush := by
  rw [begun, scheduleFor_hush]
  rfl

theorem checkLayout_hush (g : Graph) (i : Nat) (l : Layout) :
    g.hush.checkLayout i l = g.checkLayout i l := by
  simp only [checkLayout, checkEdges, incoming, outgoing, edges_hush, layoutAt_hush]

/-- A layout is admitted whatever blocks hold. -/
theorem applyLayoutAt_hush (g : Graph) (i : Nat) (l : Layout) :
    g.hush.applyLayoutAt i l = (g.applyLayoutAt i l).map hush := by
  rw [applyLayoutAt, layoutAt_hush, checkLayout_hush, applyLayoutAt]
  split
  · rw [modifyAt_hush]
    · rfl
    · exact fun _ => rfl
  · cases g.checkLayout i l with
    | error e => rfl
    | ok _ =>
      rw [modifyAt_hush]
      · rfl
      · exact fun n => by simp [arrange, Node.hush]

/-- Nodes ask for layouts whatever blocks hold. -/
theorem proposeAll_hush (schedule : List Nat) (g : Graph) :
    proposeAll schedule g.hush = (proposeAll schedule g).map fun x => (x.1.hush, x.2) := by
  induction schedule generalizing g with
  | nil => rfl
  | cons i rest ih =>
    rw [proposeAll, nodeAt?_hush, proposeAll]
    cases hn : g.nodeAt? i with
    | none => exact ih g
    | some n =>
      dsimp only [Option.map_some]
      rw [show n.hush.kind = n.kind from rfl, show n.hush.properties = n.properties from rfl,
        modifyAt_hush]
      swap
      · exact fun _ => rfl
      cases (n.kind.propose n.properties).2 with
      | none => exact ih _
      | some l =>
        dsimp only
        rw [applyLayoutAt_hush]
        rcases applyLayoutAt _ i l with (e | a) | g₁
        · rfl
        · rfl
        · exact ih g₁

/-- **A block is prepared whatever blocks hold.** -/
theorem prepare_hush {root : Nat} {ready : Graph} {refused : Option (Nat × Error)}
    (h : g.prepare id = .ok (root, ready, refused)) :
    g.hush.prepare id = .ok (root, ready.hush, refused) := by
  obtain ⟨hi, hroot, hpropose⟩ := prepare_eq_ok.mp h
  refine prepare_eq_ok.mpr ⟨by rw [index_hush, hi], by rw [sourceSide_hush, hroot], ?_⟩
  rw [begun_hush, proposeAll_hush]
  exact congrArg (Except.map _) hpropose

end Graph

/-! ## Which outputs are written -/

/-- Blocks of silence, or of anything else that is the same for all, differ only in number. -/
theorem map_const_congr {α β : Type} {l l' : List α} (h : l.length = l'.length) (b : β) :
    (l.map fun _ => b) = l'.map fun _ => b := by
  rw [List.map_const', List.map_const', h]

/-- What is overwritten to its end is forgotten. -/
theorem Convolver.overwrite_congr {out out' : Array Float32} {count : Nat}
    (hsize : out.size = out'.size) (hcount : out.size ≤ count) (f : Nat → Float32) :
    overwrite out count f = overwrite out' count f := by
  refine Array.ext (by simp [hsize]) fun i hi hi' => ?_
  rw [size_overwrite] at hi
  simp [overwrite, Nat.lt_of_lt_of_le hi hcount]

theorem HrtfPanner.blockLength_refresh {p p' : HrtfPanner} {props : Properties}
    (h : p.refresh props = .ok p') : p'.convolver.blockLength = p.convolver.blockLength := by
  rw [refresh] at h
  split at h
  · obtain ⟨c, hc, h⟩ := bind_eq_ok.mp h
    obtain ⟨⟨left, right⟩, -, hc⟩ := bind_eq_ok.mp hc
    cases h
    cases hc
    rfl
  · cases h
    rfl

/-- A panner whose blocks are long enough forgets what its outputs held. -/
theorem HrtfPanner.convolve_congr {p : HrtfPanner} (hp : blockSize ≤ p.convolver.blockLength)
    (input left right left' right' : Block) :
    p.convolve input left right = p.convolve input left' right' := by
  have hframes : ∀ l r : Block, (p.convolver.push input.toArray).frames l.toArray r.toArray
      = blockSize := by
    intro l r
    simp only [Convolver.frames, Convolver.push, Vector.size_toArray, Nat.min_self]
    exact Nat.min_eq_right hp
  have hcongr : ∀ (l l' : Block) (f : Nat → Float32),
      Convolver.overwrite l.toArray blockSize f = Convolver.overwrite l'.toArray blockSize f :=
    fun l l' => Convolver.overwrite_congr (by simp) (by simp)
  simp only [convolve, Convolver.process, hframes, hcongr left left', hcongr right right']

/-- All outputs of an oscillator carry one wave. -/
theorem Oscillator.process_congr {o : Oscillator} {rate : Nat} {props : Properties}
    {outputs outputs' : List Block} (h : outputs.length = outputs'.length) :
    (o.process rate props outputs).2 = (o.process rate props outputs').2 := by
  cases outputs with
  | nil => rw [List.eq_nil_of_length_eq_zero h.symm]
  | cons out outputs =>
    cases outputs' with
    | nil => cases h
    | cons out' outputs' => exact map_const_congr h _

/-- A panner writes its first two outputs. -/
theorem HrtfPanner.process_eq_ok {p p' : HrtfPanner} {props : Properties}
    {inputs outputs outputs' : List Block} :
    p.process props inputs outputs = .ok (p', outputs') → ∃ p₁, p.refresh props = .ok p₁ ∧
      outputs' = match outputs with
        | left :: right :: rest =>
          (p₁.convolve (inputs.headD Block.silent) left right).2.1 ::
            (p₁.convolve (inputs.headD Block.silent) left right).2.2 :: rest
        | _ => outputs := by
  intro h
  obtain ⟨p₁, hp₁, h⟩ := bind_eq_ok.mp h
  refine ⟨p₁, hp₁, ?_⟩
  rcases outputs with _ | ⟨left, _ | ⟨right, rest⟩⟩
  · cases h
    rfl
  · cases h
    rfl
  · cases h
    rfl

namespace NodeKind

/-- How many of its outputs, from the first on, a node writes. -/
def written (k : NodeKind) (outputs : Nat) : Nat :=
  match k with
  | sine _ | gain | amplitudePanner _ => outputs
  | samplePlayer _ => min outputs 1
  | hrtfPanner _ => if 2 ≤ outputs then 2 else 0
  | multipanner _ | ringSink _ => 0

/-- Outputs that are written at all are written to their end. -/
def WritesThrough : NodeKind → Prop
  | hrtfPanner p => blockSize ≤ p.convolver.blockLength
  | _ => True

instance : (k : NodeKind) → Decidable k.WritesThrough
  | hrtfPanner p => inferInstanceAs (Decidable (blockSize ≤ p.convolver.blockLength))
  | sine _ | samplePlayer _ | gain | amplitudePanner _ | multipanner _ | ringSink _ =>
    inferInstanceAs (Decidable True)

variable {k : NodeKind} {rate : Nat} {props : Properties} {inputs outputs outputs' : List Block}
  {rings rings' : List Ring} {done done' : Processed} {c : Nat}

theorem passThrough_congr (h : outputs.length = outputs'.length) :
    passThrough inputs outputs = passThrough inputs outputs' := by
  induction outputs generalizing inputs outputs' with
  | nil => rw [List.eq_nil_of_length_eq_zero h.symm]
  | cons out outputs ih =>
    cases outputs' with
    | nil => cases h
    | cons out' outputs' =>
      have hrest := Nat.succ.inj h
      cases inputs with
      | nil => rw [passThrough, passThrough, ih hrest]
      | cons input inputs => rw [passThrough, passThrough, ih hrest]

/-- **Outputs that a node does not write keep what they held.** -/
theorem getElem?_process_of_le (h : k.process rate props inputs outputs rings = .ok done)
    (hc : k.written outputs.length ≤ c) : done.outputs[c]? = outputs[c]? := by
  have hall : outputs.length ≤ c → done.outputs[c]? = outputs[c]? := by
    intro hle
    rw [List.getElem?_eq_none hle, List.getElem?_eq_none ((process_ok h).1 ▸ hle)]
  cases k with
  | sine o => exact hall hc
  | gain => exact hall hc
  | amplitudePanner p => exact hall hc
  | samplePlayer p =>
    cases h
    cases outputs with
    | nil => rfl
    | cons out rest =>
      obtain ⟨c, rfl⟩ := Nat.exists_eq_add_of_le' (show 1 ≤ c by simpa [written] using hc)
      dsimp only
      rw [List.getElem?_cons_succ, List.getElem?_cons_succ]
  | hrtfPanner p =>
    obtain ⟨⟨p', outputs'⟩, hp, h⟩ := bind_eq_ok.mp h
    cases h
    obtain ⟨p₁, -, rfl⟩ := HrtfPanner.process_eq_ok hp
    dsimp only
    split
    · obtain ⟨c, rfl⟩ := Nat.exists_eq_add_of_le' (show 2 ≤ c by simpa [written] using hc)
      rfl
    · rfl
  | multipanner p =>
    cases h
    rfl
  | ringSink s =>
    rw [process] at h
    split at h
    · obtain ⟨⟨s', ring'⟩, -, h⟩ := bind_eq_ok.mp h
      cases h
      rfl
    · cases h
      rfl

/-- **Outputs that a node writes do not depend on what outputs held.** -/
theorem getElem?_process_of_lt (hk : k.WritesThrough)
    (h : k.process rate props inputs outputs rings = .ok done)
    (h' : k.process rate props inputs outputs' rings' = .ok done')
    (hlength : outputs.length = outputs'.length) (hc : c < k.written outputs.length) :
    done.outputs[c]? = done'.outputs[c]? := by
  cases k with
  | sine o =>
    cases h
    cases h'
    exact congrArg (fun l : List Block => l[c]?) (Oscillator.process_congr hlength)
  | gain =>
    cases h
    cases h'
    rw [passThrough_congr hlength]
  | amplitudePanner p =>
    cases h
    cases h'
    simp only [AmplitudePanner.process, map_const_congr hlength]
  | samplePlayer p =>
    cases h
    cases h'
    obtain rfl : c = 0 := by
      simp only [written] at hc
      omega
    rcases outputs with _ | ⟨out, rest⟩ <;> rcases outputs' with _ | ⟨out', rest'⟩
    · rfl
    · cases hlength
    · cases hlength
    · dsimp only
      rw [List.getElem?_cons_zero, List.getElem?_cons_zero]
  | hrtfPanner p =>
    obtain ⟨⟨p', outs⟩, hp, h⟩ := bind_eq_ok.mp h
    obtain ⟨⟨p'', outs'⟩, hp', h'⟩ := bind_eq_ok.mp h'
    cases h
    cases h'
    obtain ⟨p₁, hp₁, rfl⟩ := HrtfPanner.process_eq_ok hp
    obtain ⟨p₂, hp₂, rfl⟩ := HrtfPanner.process_eq_ok hp'
    cases hp₁.symm.trans hp₂
    have hlong : blockSize ≤ p₁.convolver.blockLength := by
      rw [HrtfPanner.blockLength_refresh hp₁]
      exact hk
    dsimp only
    rcases outputs with _ | ⟨left, _ | ⟨right, rest⟩⟩
    · exact absurd hc (Nat.not_lt_zero c)
    · exact absurd hc (Nat.not_lt_zero c)
    · have hc : c < 2 := by simpa [written] using hc
      rcases outputs' with _ | ⟨left', _ | ⟨right', rest'⟩⟩
      · cases hlength
      · cases hlength
      · dsimp only
        rw [HrtfPanner.convolve_congr hlong _ left right left' right']
        obtain rfl | rfl : c = 0 ∨ c = 1 := by omega
        · rfl
        · rfl
  | multipanner p => exact absurd hc (Nat.not_lt_zero c)
  | ringSink s => exact absurd hc (Nat.not_lt_zero c)

end NodeKind

/-- A node whose outputs do not depend on what they held: it is suspended, or writes them all. -/
def Node.Rewrites (n : Node) : Prop :=
  n.properties.flag .suspended = true ∨
    n.outputs.length ≤ n.kind.written n.outputs.length ∧ n.kind.WritesThrough

instance (n : Node) : Decidable n.Rewrites := inferInstanceAs (Decidable (_ ∨ _))

namespace Graph

variable {g g' : Graph} {i root : Nat} {n n' m m' : Node} {ready ready' after after' : Graph}

/-! ## Two blocks side by side -/

/-- Gain and offset are applied to each output for itself. -/
theorem getElem?_finish_congr {props : Properties} {outputs outputs' : List Block} {c : Nat}
    (h : outputs[c]? = outputs'[c]?) :
    (finish props outputs)[c]? = (finish props outputs')[c]? := by
  simp only [finish]
  split <;> split <;> simp only [List.getElem?_map, h]

/-- Gain and offset are applied again to outputs that are not written. -/
theorem Turn.getElem?_outputs {rate c : Nat} {rings rings' : List Ring} {inputs : List Block}
    (h : Turn rate rings inputs n n' rings') (hon : n.properties.flag .suspended = false)
    (hc : n.kind.written n.outputs.length ≤ c) :
    n'.outputs[c]? = (finish n.properties n.outputs)[c]? := by
  obtain ⟨done, hdone, -, houtputs, -⟩ := h.active hon
  rw [houtputs]
  exact getElem?_finish_congr (NodeKind.getElem?_process_of_le hdone hc)

/-- **Equal inputs make equal outputs of a node that rewrites them.** -/
theorem Turn.outputs_congr {rate : Nat} {rings rings' rings₁ rings₁' : List Ring}
    {inputs : List Block} (h : Turn rate rings inputs n m rings₁)
    (h' : Turn rate rings' inputs n' m' rings₁') (hsame : n'.hush = n.hush) (hn : n.Rewrites) :
    m'.outputs = m.outputs := by
  have hkind : n'.kind = n.kind := (congrArg Node.kind hsame :)
  have hprops : n'.properties = n.properties := (congrArg Node.properties hsame :)
  have hlength : n'.outputs.length = n.outputs.length := by
    simpa [Node.hush] using congrArg (fun x : Node => x.outputs.length) hsame
  cases hflag : n.properties.flag .suspended with
  | true =>
    rw [(h.suspended hflag).2.1, (h'.suspended (hprops ▸ hflag)).2.1, map_const_congr hlength]
  | false =>
    obtain ⟨hall, hthrough⟩ := hn.resolve_left (by rw [hflag]; decide)
    obtain ⟨done, hdone, -, houtputs, -⟩ := h.active hflag
    obtain ⟨done', hdone', -, houtputs', -⟩ := h'.active (hprops ▸ hflag)
    rw [hkind, hprops] at hdone'
    have hlen := (NodeKind.process_ok hdone).1
    have hlen' := (NodeKind.process_ok hdone').1
    have hsame : done'.outputs = done.outputs := by
      refine List.ext_getElem? fun c => ?_
      by_cases hc : c < n.outputs.length
      · exact (NodeKind.getElem?_process_of_lt hthrough hdone hdone' hlength.symm
          (Nat.lt_of_lt_of_le hc hall)).symm
      · rw [List.getElem?_eq_none (by omega), List.getElem?_eq_none (by omega)]
    rw [houtputs, houtputs', hprops, hsame]

/-- Two graphs that differ only in what blocks hold are alike. -/
theorem alike_of_hush (h : g'.hush = g.hush) : g.Alike g' := by
  have hnodes : ∀ j, (g'.nodeAt? j).map Node.hush = (g.nodeAt? j).map Node.hush := by
    intro j
    rw [← nodeAt?_hush, ← nodeAt?_hush, h]
  have halike : ∀ {n n' : Node}, n'.hush = n.hush → n.Alike n' := by
    intro n n' hn
    refine ⟨⟨(congrArg Node.layout hn :), ?_, ?_⟩, (congrArg Node.owner hn :),
      (congrArg Node.interior hn :)⟩
    · simpa [Node.hush] using congrArg (fun x : Node => x.inputs.length) hn
    · simpa [Node.hush] using congrArg (fun x : Node => x.outputs.length) hn
  refine ⟨(congrArg Graph.edges h :), (congrArg Graph.vacant h :), (congrArg Graph.root h :),
    (congrArg Graph.schedule h :), ?_, fun j => ?_, fun j n hn => ?_, fun j n' hn' => ?_⟩
  · rw [← length_hush, h, length_hush]
  · rw [← handleAt_hush, h, handleAt_hush]
  · have hj := hnodes j
    rw [hn] at hj
    obtain ⟨n', hn', hsame⟩ := Option.map_eq_some_iff.mp hj
    exact ⟨n', hn', halike hsame⟩
  · have hj := hnodes j
    rw [hn'] at hj
    obtain ⟨n, hn, hsame⟩ := Option.map_eq_some_iff.mp hj.symm
    exact ⟨n, hn, halike hsame.symm⟩

theorem hush_modifyAt {f : Node → Node} (hn : g.nodeAt? i = some n) (hf : (f n).hush = n.hush) :
    (g.modifyAt i f).hush = g.hush := by
  simp only [hush, modifyAt]
  congr 1
  refine List.ext_getElem? fun j => ?_
  simp only [List.getElem?_map, List.getElem?_modify]
  split
  · next hij =>
    subst hij
    rw [nodeAt?] at hn
    rcases hs : g.slots[i]? with _ | ⟨generation, _ | m⟩
    · rfl
    · rfl
    · rw [hs] at hn
      cases hn
      simp [hf]
  · simp

/-- Going over to another layout and back silences a node, and does nothing else. -/
theorem Sound.hush_relaid (h : g.Sound) {id : NodeId} {l : Layout} {g₁ g₂ : Graph}
    (hn : g.node id = .ok n) (hk : n.kind.layoutApplied = n.kind) (hl : n.layout ≠ l)
    (h₁ : g.applyLayout id l = .ok g₁) (h₂ : g₁.applyLayout id n.layout = .ok g₂) :
    g₂.hush = g.hush := by
  have hsound₁ := h.applyLayout h₁
  obtain ⟨-, -, rfl⟩ := (applyLayout_eq_ok h.wellFormed hn).mp h₁
  have hn₁ : (g.modifyAt id.index (rearrange l)).node id = .ok (rearrange l n) := by
    rw [node_modifyAt _ hn, if_pos rfl]
  obtain ⟨-, -, rfl⟩ := (applyLayout_eq_ok hsound₁.wellFormed hn₁).mp h₂
  have hfits := h.wellFormed.fits _ n (nodeAt?_of_node hn)
  rw [modifyAt_modifyAt]
  refine hush_modifyAt (nodeAt?_of_node hn) ?_
  have hback : (arrange l n).layout ≠ n.layout := Ne.symm hl
  rw [Function.comp_apply, rearrange, rearrange, if_neg hl, if_neg hback]
  simp [arrange, Node.hush, hk, hfits.inputs, hfits.outputs]

/-- **Where all nodes upstream rewrite their outputs, two blocks give the same.** -/
theorem Evaluated.view_eq (hp : Prepared g root ready) (he : Evaluated g root ready after)
    (he' : Evaluated g' root ready' after') (hg : g'.hush = g.hush)
    (hsame : ready'.hush = ready.hush) (hi : Leads g.edges i root)
    (hup : ∀ j n, Leads g.edges j i → ready.nodeAt? j = some n → n.Rewrites) :
    (after'.nodeAt? i).map (fun n => (n.layout, n.outputs))
      = (after.nodeAt? i).map fun n => (n.layout, n.outputs) := by
  have hedges : g'.edges = g.edges := (congrArg Graph.edges hg :)
  have hrate : g'.sampleRate = g.sampleRate := (congrArg Graph.sampleRate hg :)
  -- sources stand before their targets in the order of the block
  induction hk : ready.schedule.idxOf i using Nat.strongRecOn generalizing i with
  | ind k ih =>
    obtain ⟨n, m, rings, rings₁, hn, hm, hturn, hlength, hheard, -⟩ := he.computed i hi
    obtain ⟨n', m', rings', rings₁', hn', hm', hturn', hlength', hheard', -⟩ :=
      he'.computed i (hedges ▸ hi)
    have hnodes : n'.hush = n.hush := by
      have hat := congrArg (fun x : Graph => x.nodeAt? i) hsame
      simp only [nodeAt?_hush, hn, hn', Option.map_some] at hat
      exact Option.some.inj hat
    have hlayout : m'.layout = m.layout := by
      rw [hturn.layout, hturn'.layout]
      exact (congrArg Node.layout hnodes :)
    have hhears : ∀ c, after'.heard i c = after.heard i c := by
      intro c
      refine heard_congr (by rw [he'.edges, he.edges, hedges]) (fun e hmem => ?_) ?_
      · obtain ⟨hmem, ht⟩ := List.mem_filter.mp hmem
        have ht : e.target = i := of_decide_eq_true ht
        rw [he.edges] at hmem
        have hfeeds : Feeds g.edges e.source i := ⟨e, hmem, rfl, ht⟩
        have hbefore := hp.before e hmem (ht ▸ hi)
        rw [ht, hk] at hbefore
        exact ih _ hbefore (.head hfeeds hi) (fun j n hj => hup j n (hj.tail hfeeds)) rfl
      · rw [layoutAt_of_nodeAt? hm, layoutAt_of_nodeAt? hm', hlayout]
    have hinputs : m'.inputs = m.inputs := by
      refine List.ext_getElem? fun c => ?_
      by_cases hc : c < m.layout.inputs
      · rw [hheard c hc, hheard' c (hlayout ▸ hc), hhears]
      · rw [hlayout] at hlength'
        rw [List.getElem?_eq_none (by omega), List.getElem?_eq_none (by omega)]
    rw [hinputs, hrate] at hturn'
    have houtputs := hturn.outputs_congr hturn' hnodes (hup i n .refl hn)
    rw [hm, hm', Option.map_some, Option.map_some, hlayout, houtputs]

end Graph

open SpatialAudio.Graph

/-- **The outputs of a block do not depend on what blocks held before, as far as all nodes upstream
rewrite theirs; where a node does not, gain and offset are applied to what is held over.** -/
theorem outputs_of_reachable {s : Session} (h : s.Reachable) {g' : Graph}
    (hsame : g'.hush = s.graph.hush) {id : NodeId} {root : Nat} {ready after after' : Graph}
    (hready : s.graph.prepare id = .ok (root, ready, none)) (hpull : s.graph.pull id = .ok after)
    (hpull' : g'.pull id = .ok after') :
    (∀ i, Leads s.graph.edges i root →
      (∀ j n, Leads s.graph.edges j i → ready.nodeAt? j = some n → n.Rewrites) →
      (after'.nodeAt? i).map Node.outputs = (after.nodeAt? i).map Node.outputs) ∧
    ∀ i n, Leads s.graph.edges i root → ready.nodeAt? i = some n →
      n.properties.flag .suspended = false → ∃ n', after.nodeAt? i = some n' ∧
        ∀ c, n.kind.written n.outputs.length ≤ c →
          n'.outputs[c]? = (finish n.properties n.outputs)[c]? := by
  have hsound' : g'.Sound := h.sound.alike (alike_of_hush hsame)
  have hprepared := h.sound.prepared hready
  rw [pull_eq_prepare, hready] at hpull
  have heval := hprepared.evaluated hpull
  rw [pull_eq_prepare] at hpull'
  obtain ⟨⟨root', ready', refused'⟩, hready', hpull'⟩ := bind_eq_ok.mp hpull'
  -- the other block is prepared in the same way, and so is not given up either
  have hboth := prepare_hush hready'
  rw [hsame, prepare_hush hready] at hboth
  obtain ⟨rfl, hrest⟩ := Prod.mk.inj (Except.ok.inj hboth)
  obtain ⟨hhush, rfl⟩ := Prod.mk.inj hrest
  have heval' := (hsound'.prepared hready').evaluated hpull'
  refine ⟨fun i hi hup => ?_, fun i n hi hn hon => ?_⟩
  · have hview := heval.view_eq hprepared heval' hsame hhush.symm hi hup
    have houtputs := congrArg (Option.map Prod.snd) hview
    rwa [Option.map_map, Option.map_map] at houtputs
  · obtain ⟨n₁, n', rings, rings', hn₁, hn', hturn, -⟩ := heval.computed i hi
    cases hn.symm.trans hn₁
    exact ⟨n', hn', fun c hc => hturn.getElem?_outputs hon hc⟩

/-- Two players into one gain, after a block. -/
def twoPlayersPlayed : Session := (twoPlayers.step (.process "c" 1)).2

theorem outputs_twoPlayersPlayed : ∃ ready after after',
    twoPlayersPlayed.graph.prepare ⟨2, 0⟩ = .ok (2, ready, none) ∧
    twoPlayersPlayed.graph.pull ⟨2, 0⟩ = .ok after ∧
    twoPlayersPlayed.graph.hush.pull ⟨2, 0⟩ = .ok after' ∧
    twoPlayersPlayed.graph.firstSamples 2 = some [0x41100000] ∧
    twoPlayersPlayed.graph.hush.firstSamples 2 = some [0] ∧
    (after'.nodeAt? 2).map Node.outputs = (after.nodeAt? 2).map Node.outputs := by
  have hs : twoPlayersPlayed.Reachable := .step reachable_twoPlayers _
  have hready : (twoPlayersPlayed.graph.prepare ⟨2, 0⟩).toOption.map (fun x =>
      (x.1, x.2.2.isNone, decide (∀ j ∈ x.2.1.schedule, ∀ n ∈ x.2.1.nodeAt? j, n.Rewrites)))
      = some (2, true, true) := by decide +kernel
  have hpull : (twoPlayersPlayed.graph.pull ⟨2, 0⟩).toOption.map (fun _ => ()) = some () := by
    decide +kernel
  have hpull' : (twoPlayersPlayed.graph.hush.pull ⟨2, 0⟩).toOption.map (fun _ => ()) = some () := by
    decide +kernel
  obtain ⟨⟨root, ready, refused⟩, hprepare, hfacts⟩ := map_toOption_eq_some.mp hready
  obtain ⟨after, hpull, -⟩ := map_toOption_eq_some.mp hpull
  obtain ⟨after', hpull', -⟩ := map_toOption_eq_some.mp hpull'
  obtain ⟨rfl, hfacts⟩ := Prod.mk.inj hfacts
  obtain ⟨hnone, hrewrites⟩ := Prod.mk.inj hfacts
  obtain rfl := Option.isNone_iff_eq_none.mp hnone
  have hup := of_decide_eq_true hrewrites
  have hprepared := hs.sound.prepared hprepare
  have houtputs := (outputs_of_reachable hs (hush_hush _) hprepare hpull hpull').1 2 .refl
    fun j n hj hn => hup j (hprepared.scheduled.mpr hj) n hn
  exact ⟨ready, after, after', hprepare, hpull, hpull', by decide +kernel, by decide +kernel,
    houtputs⟩

/-- The first samples of the root after a block that is not given up. -/
def Graph.played? (g : Graph) (id : NodeId) : Option (List UInt32) :=
  match g.prepare id, g.pull id with
  | .ok (root, _, none), .ok after => after.firstSamples root
  | _, _ => none

theorem Graph.played?_eq_some {g : Graph} {id : NodeId} {samples : List UInt32}
    (h : g.played? id = some samples) : ∃ root ready after,
      g.prepare id = .ok (root, ready, none) ∧ g.pull id = .ok after ∧
        after.firstSamples root = some samples := by
  rw [played?] at h
  split at h
  · next root ready after hready hpull => exact ⟨root, ready, after, hready, hpull, h⟩
  · cases h

/-- A player with one output more than it writes, after a block with an offset. -/
def stereoPlayer : Session :=
  let s := ((Session.new 44100 64).step
    (.command (.associate "p" (.samplePlayer #[] none) ⟨0, 2, [], [⟨0, 2⟩]⟩))).2
  let s := (s.step (.command (.set "p" .add (.float 1)))).2
  (s.step (.process "p" 1)).2

/-- **What outputs hold over is heard**: in two states that differ in nothing but what blocks hold,
the same block comes out differently, and an offset is added to what it was added to before. -/
theorem outputs_stereoPlayer : ∃ s s' : Session, s.Reachable ∧ s'.Reachable ∧
    s'.graph.hush = s.graph.hush ∧
    (∃ root ready after, s.graph.prepare ⟨0, 0⟩ = .ok (root, ready, none) ∧
      s.graph.pull ⟨0, 0⟩ = .ok after ∧ after.firstSamples root = some [0x3f800000, 0x40000000]) ∧
    ∃ root ready after, s'.graph.prepare ⟨0, 0⟩ = .ok (root, ready, none) ∧
      s'.graph.pull ⟨0, 0⟩ = .ok after ∧ after.firstSamples root = some [0x3f800000, 0x3f800000] := by
  have hs : stereoPlayer.Reachable := .step (.step (.step (.new 44100 64) _) _) _
  have hnode : (stereoPlayer.graph.node ⟨0, 0⟩).toOption.map (fun n => (n.kind.type, n.layout))
      = some (.samplePlayer, ⟨0, 2, [], [⟨0, 2⟩]⟩) := by decide +kernel
  have hplayed : stereoPlayer.graph.played? ⟨0, 0⟩ = some [0x3f800000, 0x40000000] := by
    decide +kernel
  have hrelaid : (stereoPlayer.graph.applyLayout ⟨0, 0⟩ ⟨0, 3, [], [⟨0, 2⟩]⟩).toOption.map (fun g =>
      (g.applyLayout ⟨0, 0⟩ ⟨0, 2, [], [⟨0, 2⟩]⟩).toOption.map (·.played? ⟨0, 0⟩))
      = some (some (some [0x3f800000, 0x3f800000])) := by decide +kernel
  obtain ⟨n, hn, hshape⟩ := map_toOption_eq_some.mp hnode
  obtain ⟨htype, hlayout⟩ := Prod.mk.inj hshape
  obtain ⟨g₁, h₁, hrelaid⟩ := map_toOption_eq_some.mp hrelaid
  obtain ⟨g₂, h₂, hplayed'⟩ := map_toOption_eq_some.mp hrelaid
  have hkind : n.kind.layoutApplied = n.kind := by
    cases hk : n.kind with
    | amplitudePanner p => rw [hk] at htype; cases htype
    | _ => rfl
  have hsame := hs.sound.hush_relaid hn hkind (by rw [hlayout]; decide) h₁ (hlayout ▸ h₂)
  have hs₁ : Session.Reachable { stereoPlayer with graph := g₁ } := hs.move (.applyLayout h₁)
  have hs₂ : Session.Reachable { stereoPlayer with graph := g₂ } := hs₁.move (.applyLayout h₂)
  exact ⟨stereoPlayer, _, hs, hs₂, hsame, Graph.played?_eq_some hplayed,
    Graph.played?_eq_some hplayed'⟩

end SpatialAudio
