import SpatialAudio.Proofs.Dataflow
import SpatialAudio.Proofs.Ownership
import SpatialAudio.Proofs.Steadiness
import SpatialAudio.Proofs.Stories

/-!
# Proofs/Generations — handles do not come back to life

A slot is vacated when its node is removed, alone or with the subgraph it is part of, and when a node
that was placed there is given up because its layout is refused (`Happening.vacates`).  Every
happening moves the generations of exactly the slots that it vacates on, each by one, and all other
nodes live on (`Happening.aged`).  So the generation of a slot counts, up to `2 ^ 32`, how often the
slot was vacated (`generation_replay`), and a handle is good only while that count is its own.

A handle that is given out (`Happening.gives`) is the one its slot had while it was empty
(`Happening.fresh`); so no handle is given out twice before its slot was vacated `2 ^ 32` times
(`nodup_given`).
-/

namespace SpatialAudio

namespace Graph

variable {g g' g'' : Graph} {x id : NodeId} {n : Node} {i : Nat}

/-! ## Slots that are vacated -/

/-- The slots of `gone` were vacated, each once; the nodes in all others live on. -/
structure Aged (g g' : Graph) (gone : List Nat) : Prop where
  nodup : gone.Nodup
  aged : ∀ i ∈ gone, (g'.handleAt i).generation = (g.handleAt i).generation + 1
  empty : ∀ i ∈ gone, g'.nodeAt? i = none
  handle : ∀ i, i ∉ gone → g'.handleAt i = g.handleAt i
  lives : ∀ i, i ∉ gone → ∀ n, g.nodeAt? i = some n → ∃ n', g'.nodeAt? i = some n'

theorem aged_nil (handle : ∀ i, g'.handleAt i = g.handleAt i)
    (lives : ∀ i n, g.nodeAt? i = some n → ∃ n', g'.nodeAt? i = some n') : Aged g g' [] where
  nodup := .nil
  aged _ hi := absurd hi List.not_mem_nil
  empty _ hi := absurd hi List.not_mem_nil
  handle i _ := handle i
  lives i _ := lives i

theorem aged_self (g : Graph) : Aged g g [] := aged_nil (fun _ => rfl) fun _ n hn => ⟨n, hn⟩

theorem Steady.aged (h : Steady g g') : Aged g g' [] := by
  refine aged_nil (fun i => (h.stays i).handle) fun i n hn => ?_
  obtain ⟨n', hn', -⟩ := (h.stays i).frame n hn
  exact ⟨n', hn'⟩

theorem Within.aged {R : Node → Node → Prop} (h : Within R g g') : Aged g g' [] := by
  refine aged_nil h.handleAt fun i n hn => ?_
  obtain ⟨n', hn', -⟩ := h.forth i n hn
  exact ⟨n', hn'⟩

theorem aged_update {f : Graph → Except Failure Graph} (hf : ∀ g', f g = .ok g' → Aged g g' []) :
    Aged g ((GraphM.update f).run g).2 [] :=
  inv_update (I := fun g' => Aged g g' []) (aged_self g) hf

theorem aged_change {f : Graph → Except Error Graph} (hf : ∀ g', f g = .ok g' → Aged g g' []) :
    Aged g ((GraphM.change f).run g).2 [] :=
  inv_change (I := fun g' => Aged g g' []) (aged_self g) hf

/-- A handle whose slot is not vacated stays good, and one whose slot is does not. -/
theorem Aged.contains {gone : List Nat} (h : Aged g g' gone) (hn : g.node x = .ok n) :
    g'.contains x = true ↔ x.index ∉ gone := by
  rw [contains_iff]
  refine ⟨fun ⟨n', hn'⟩ hx => ?_, fun hx => ?_⟩
  · cases (nodeAt?_of_node hn').symm.trans (h.empty _ hx)
  · obtain ⟨n', hn'⟩ := h.lives _ hx n (nodeAt?_of_node hn)
    exact ⟨n', node_eq_ok.mpr ⟨hn', (h.handle _ hx).trans (handleAt_of_node hn)⟩⟩

/-! ### Operations that vacate nothing unless they fail -/

/-- If the operation succeeds, all slots keep their generation. -/
def Ageless {α : Type} (m : GraphM α) : Prop :=
  ∀ g a g', m.run g = (.ok a, g') → ∀ i, g'.handleAt i = g.handleAt i

theorem Ageless.bind {α β : Type} {m : GraphM α} {f : α → GraphM β} (hm : Ageless m)
    (hf : ∀ a, Ageless (f a)) : Ageless (m >>= f) := by
  intro g b g'' hrun i
  rw [run_bind] at hrun
  rcases hr : m.run g with ⟨_ | a, g'⟩
  · rw [hr] at hrun
    cases hrun
  · rw [hr] at hrun
    exact (hf a g' b g'' hrun i).trans (hm g a g' hr i)

theorem ageless_pure {α : Type} (a : α) : Ageless (pure a) := by
  intro g b g' hrun i
  cases hrun
  rfl

theorem ageless_change {f : Graph → Except Error Graph}
    (hf : ∀ {g g'}, f g = .ok g' → ∀ i, g'.handleAt i = g.handleAt i) :
    Ageless (GraphM.change f) := by
  intro g a g' hrun
  rw [run_change] at hrun
  split at hrun
  · next hg' =>
    cases hrun
    exact hf hg'
  · cases hrun

theorem ageless_forM {α : Type} {f : α → GraphM Unit} (hf : ∀ a, Ageless (f a)) (l : List α) :
    Ageless (l.forM f) := by
  induction l with
  | nil => exact ageless_pure ()
  | cons a l ih => exact (hf a).bind fun _ => ih

theorem handleAt_applyLayoutAt {l : Layout} (h : g.applyLayoutAt i l = .ok g') (j : Nat) :
    g'.handleAt j = g.handleAt j := by
  obtain ⟨f, rfl, -⟩ := applyLayoutAt_eq_modifyAt h
  exact handleAt_modifyAt g i j f

theorem ageless_associate (k : NodeKind) (l : Layout) : Ageless (associate k l) := by
  intro g id g' hrun i
  rw [associate_run] at hrun
  split at hrun
  · next happly =>
    cases hrun
    rw [handleAt_applyLayoutAt happly, handleAt_place]
  · cases hrun

theorem handleAt_applyLayout {l : Layout} (h : g.applyLayout id l = .ok g') (j : Nat) :
    g'.handleAt j = g.handleAt j := by
  obtain ⟨i, -, h⟩ := bind_eq_ok.mp h
  exact handleAt_applyLayoutAt h j

theorem ageless_recomputeMap (id : NodeId) : Ageless (recomputeMap id) := by
  intro g a g' hrun i
  by_cases hex : ∃ n q, g.node id = .ok n ∧ n.kind = .amplitudePanner q
  · obtain ⟨n, q, hn, hk⟩ := hex
    rw [run_recomputeMap hn hk] at hrun
    split at hrun
    · next happly =>
      cases hrun
      rw [handleAt_applyLayout happly, handleAt_modifyAt]
    · cases hrun
  · obtain ⟨e, herror⟩ := run_recomputeMap_of_not fun n q hn hk => hex ⟨n, q, hn, hk⟩
    cases herror.symm.trans hrun

theorem ageless_addObserver (phase : Phase) (id : NodeId) (p : PropertyId) (o : Observer) :
    Ageless (GraphM.change fun g => g.addObserver phase id p o) := by
  refine ageless_change fun {g g'} hg' => ?_
  obtain ⟨-, rfl⟩ := addObserver_eq_ok.mp hg'
  exact (alike_modifyProperty g id p _).handleAt

theorem ageless_connect (a : NodeId) (o : Nat) (b : NodeId) (k : Nat) :
    Ageless (GraphM.change fun g => g.connect a o b k) := by
  refine ageless_change fun {g g'} hg' i => ?_
  rw [handleAt, handleAt, slots_connectAt (connect_eq_ok.mp hg').2.2]

theorem handleAt_foldlM {f : Graph → NodeId → Except Error Graph}
    (hf : ∀ {g g' y}, f g y = .ok g' → ∀ i, g'.handleAt i = g.handleAt i) {l : List NodeId}
    (h : l.foldlM f g = .ok g') (i : Nat) : g'.handleAt i = g.handleAt i := by
  induction l generalizing g with
  | nil =>
    cases h
    rfl
  | cons y l ih =>
    obtain ⟨g₁, hg₁, h⟩ := bind_eq_ok.mp (List.foldlM_cons (f := f) ▸ h)
    exact (ih h).trans (hf hg₁ i)

theorem ageless_makeSubgraph (owner : NodeId) (ends : Interior) (inside : List NodeId) :
    Ageless (GraphM.change fun g => g.makeSubgraph owner ends inside) := by
  have howned : ∀ {g g' : Graph} {y : NodeId} {f : Node → Node},
      (do return g.modifyAt (← g.index y) f : Except Error Graph) = .ok g' →
        ∀ i, g'.handleAt i = g.handleAt i := by
    intro g g' y f h i
    obtain ⟨j, -, h⟩ := bind_eq_ok.mp h
    cases h
    exact handleAt_modifyAt g j i f
  refine ageless_change fun {g g'} hg' i => ?_
  obtain ⟨_, -, hg'⟩ := bind_eq_ok.mp hg'
  obtain ⟨_, -, hg'⟩ := bind_eq_ok.mp hg'
  obtain ⟨g₁, hfold, hg'⟩ := bind_eq_ok.mp hg'
  exact (howned hg' i).trans (handleAt_foldlM howned hfold i)

theorem ageless_hrtfKind (data : Dataset) : Ageless (hrtfKind data) := by
  intro g k g' hrun i
  rw [hrtfKind] at hrun
  split at hrun <;> cases hrun
  rfl

theorem ageless_assemble (data : Dataset) : Ageless (Multipanner.assemble data) := by
  have hhrtf : Ageless (createHrtfPanner data) :=
    (ageless_hrtfKind data).bind fun _ => (ageless_associate _ _).bind fun _ =>
      (ageless_addObserver _ _ _ _).bind fun _ => (ageless_addObserver _ _ _ _).bind fun _ =>
        ageless_pure _
  have hamplitude : Ageless createAmplitudePanner :=
    (ageless_associate _ _).bind fun _ => (ageless_recomputeMap _).bind fun _ => ageless_pure _
  exact hhrtf.bind fun _ => hamplitude.bind fun _ => (ageless_associate _ _).bind fun _ =>
    (ageless_associate _ _).bind fun _ => (ageless_connect _ _ _ _).bind fun _ =>
      (ageless_connect _ _ _ _).bind fun _ => (ageless_associate _ _).bind fun _ =>
        (ageless_makeSubgraph _ _ _).bind fun _ =>
          (ageless_forM (fun _ => ageless_addObserver _ _ _ _) _).bind fun _ => ageless_pure _

/-! ### Adding and removing nodes -/

/-- A slot in which a node is given up is vacated. -/
theorem Sound.aged_associate_error (h : g.Sound) {k : NodeKind} {l : Layout} {e : Failure}
    (hrun : (Graph.associate k l).run g = (.error e, g')) : Aged g g' [g.nextSlot] := by
  have hplaced : (g.place (blank k)).2.nodeAt? g.nextSlot = some (blank k) := by
    rw [nodeAt?_place h.arena, if_pos rfl]
  rw [associate_run] at hrun
  split at hrun
  · cases hrun
  · cases hrun
    refine ⟨List.nodup_singleton _, fun i hi => ?_, fun i hi => ?_, fun i hi => ?_,
      fun i hi n hn => ⟨n, ?_⟩⟩
    · rw [List.mem_singleton.mp hi, generation_vacate (lt_of_nodeAt? hplaced), handleAt_place]
    · rw [nodeAt?_vacate, if_pos (List.mem_singleton.mp hi)]
    · rw [handleAt_vacate _ (mt List.mem_singleton.mpr hi), handleAt_place]
    · have hi := mt List.mem_singleton.mpr hi
      rw [nodeAt?_vacate, if_neg hi, nodeAt?_place h.arena, if_neg hi, hn]

/-- A node that is added takes an empty slot, under the handle that the slot has. -/
theorem Sound.aged_associate_ok (h : g.Sound) {k : NodeKind} {l : Layout} {id : NodeId}
    (hrun : (Graph.associate k l).run g = (.ok id, g')) :
    id = g.nextHandle ∧ (∃ n, g'.node id = .ok n) ∧ Aged g g' [] := by
  rcases associate_cases h k l with ⟨g₁, hrun₁, hw⟩ | ⟨e, g₁, hrun₁, -⟩
  · cases hrun₁.symm.trans hrun
    refine ⟨rfl, ⟨_, hw.self⟩, aged_nil (ageless_associate k l g _ _ hrun) fun i n hn => ?_⟩
    have hnode := node_handleAt.mpr hn
    have hne : g.handleAt i ≠ g.nextHandle := fun heq => h.arena.node_nextHandle n (heq ▸ hnode)
    exact ⟨n, nodeAt?_of_node ((hw.other hne).trans hnode)⟩
  · cases hrun₁.symm.trans hrun

/-- The nodes of a new multipanner take empty slots, under the handles that these have. -/
theorem aged_assembled {data : Dataset} {m : Multipanner} (ha : Multipanner.Assembled g id m g')
    (hrun : (Multipanner.assemble data).run g = (.ok id, g')) : Aged g g' [] := by
  refine aged_nil (ageless_assemble data g id g' hrun) fun i n hn => ?_
  have hnode := node_handleAt.mpr hn
  exact ⟨n, nodeAt?_of_node ((ha.others _ fun hmem => ha.fresh _ hmem n hnode).trans hnode)⟩

/-- **Removing a node vacates its slot and those of the nodes it owns.** -/
theorem Sound.aged_remove (h : g.Sound) (hr : g.remove id = .ok g') :
    Aged g g' (g.household id) := by
  obtain ⟨⟨n, hn, hown⟩, rfl⟩ := (remove_eq_ok h.toCoherent).mp hr
  have hret := h.toCoherent.retired hn hown
  have hnd := nodup_household hn hown
  have hslots := slots_reschedule ((g.household id).foldl Graph.retire g)
  refine ⟨hnd, fun i hi => ?_, fun i hi => ?_, fun i hi => ?_, fun i hi m hm => ⟨m, ?_⟩⟩
  · rw [handleAt, hslots]
    exact generation_foldl_retire h.arena hnd (fun _ => exists_of_mem_household hn) hi
  · rw [nodeAt?, hslots]
    exact (hret.nodeAt? i).trans (if_pos hi)
  · rw [handleAt, hslots]
    exact hret.handleAt i hi
  · rw [nodeAt?, hslots]
    exact (hret.nodeAt? i).trans ((if_neg hi).trans hm)

theorem Sound.aged_assemble (h : g.Sound) (data : Dataset) :
    Aged g ((Multipanner.assemble data).run g).2 [] := by
  cases hq : HrtfPanner.new data with
  | error a =>
    rw [Multipanner.run_assemble_of_error hq]
    exact aged_self g
  | ok q =>
    obtain ⟨id, m, g', hrun, ha⟩ := Multipanner.run_assemble h hq
    rw [hrun]
    exact aged_assembled ha hrun

end Graph

open SpatialAudio.Graph

/-! ## Happenings -/

/-- The slot of a node that was to be added is vacated if it is given up. -/
def Graph.spent (g : Graph) : Except Failure NodeId → List Nat
  | .ok _ => []
  | .error _ => [g.nextSlot]

/-- The slots that a deed vacates. -/
def Deed.vacates {α : Type} : Deed α → Graph → List Nat
  | .associate kind layout, g => g.spent ((Graph.associate kind layout).run g).1
  | .remove id, g => if (g.remove id).isOk then g.household id else []
  | _, _ => []

/-- The handles of a multipanner and of the nodes inside. -/
def Graph.family (g : Graph) (id : NodeId) : List NodeId :=
  match Multipanner.find g id with
  | .ok m => id :: m.inside
  | .error _ => [id]

/-- The handles that a deed gives out: those of the nodes it adds. -/
def Deed.gives {α : Type} : Deed α → Graph → List NodeId
  | .associate kind layout, g => ((Graph.associate kind layout).run g).1.toOption.toList
  | .assemble data, g =>
    ((Multipanner.assemble data).run g).1.toOption.toList.flatMap
      (((Multipanner.assemble data).run g).2.family ·)
  | _, _ => []

/-- The slots that a happening vacates. -/
def Happening.vacates : Happening → Graph → List Nat
  | deed d, g => d.vacates g
  | _, _ => []

/-- The handles that a happening gives out. -/
def Happening.gives : Happening → Graph → List NodeId
  | deed d, g => d.gives g
  | _, _ => []

theorem Deed.aged {α : Type} {g : Graph} (h : g.Sound) (d : Deed α) :
    Aged g (d.after g) (d.vacates g) := by
  cases d with
  | associate kind layout =>
    change Aged g ((Graph.associate kind layout).run g).2 (g.spent _)
    rcases hrun : (Graph.associate kind layout).run g with ⟨e | id, g'⟩
    · exact h.aged_associate_error hrun
    · exact (h.aged_associate_ok hrun).2.2
  | assemble data => exact h.aged_assemble data
  | remove id =>
    change Aged g (Deed.after (.remove id) g) (if (g.remove id).isOk then g.household id else [])
    rw [Deed.after, Deed.run, run_change]
    cases hr : g.remove id with
    | ok g' => exact h.aged_remove hr
    | error e => exact aged_self g
  | connect source o target i =>
    refine aged_change fun g' hc => (h.steady (.connect hc) ?_).aged
    exact stays_of_slots (slots_connectAt (connect_eq_ok.mp hc).2.2)
  | connectInterior source o target i =>
    refine aged_change fun g' hc => (h.steady (.connectInterior hc) ?_).aged
    exact stays_of_slots (slots_connectAt (connectInterior_eq_ok.mp hc).2.2)
  | disconnect source o =>
    refine aged_change fun g' hc => (h.steady (.disconnect hc) ?_).aged
    exact stays_of_slots (slots_disconnectAt (disconnect_eq_ok.mp hc).2)
  | disconnectInterior source o =>
    refine aged_change fun g' hc => (h.steady (.disconnectInterior hc) ?_).aged
    exact stays_of_slots (slots_disconnectAt (disconnectInterior_eq_ok.mp hc).2)
  | arrange id layout => exact aged_update fun g' happly => (h.steady_applyLayout happly).aged
  | observe phase id p o =>
    refine aged_change fun g' hadd => ?_
    obtain ⟨-, rfl⟩ := addObserver_eq_ok.mp hadd
    exact (alike_modifyProperty g id p _).aged
  | recomputeMap id => exact (h.steady_recomputeMap id).aged
  | markRecompute id => exact aged_change fun g' hm => (h.steady_markRecompute hm).aged
  | adopt id strategy =>
    refine aged_change fun g' hadopt => ?_
    obtain ⟨m, -, hadopt⟩ := bind_eq_ok.mp hadopt
    cases hadopt
    exact (h.steady_kind id.index _).aged
  | pull id => exact aged_update fun g' hp => (h.steady_pull hp).aged
  | addRing capacity =>
    rw [Deed.after, Deed.run, Graph.addRing]
    split
    · exact aged_self g
    · exact aged_nil (fun _ => rfl) fun _ n hn => ⟨n, hn⟩
  | clearFaults => exact aged_nil (fun _ => rfl) fun _ n hn => ⟨n, hn⟩
  | refill number ring => exact aged_nil (fun _ => rfl) fun _ n hn => ⟨n, hn⟩

/-- **Every happening moves exactly the slots that it vacates on by one generation.** -/
theorem Happening.aged {g : Graph} (h : g.Sound) (k : Happening) :
    Aged g (k.after g) (k.vacates g) := by
  cases k with
  | deed d => exact d.aged h
  | taken phase id p => exact (alike_modifyProperty g id p _).aged
  | restored phase id p os => exact (alike_modifyProperty g id p _).aged
  | stored id p v => exact (alike_modifyProperty g id p _).aged

/-- A handle that was not good, although it is the one of its slot, and is good now. -/
structure Graph.Fresh (g g' : Graph) (y : NodeId) : Prop where
  empty : g.nodeAt? y.index = none
  handle : g.handleAt y.index = y
  alive : ∃ n, g'.node y = .ok n

theorem fresh_assembled {g g' : Graph} {id : NodeId} {m : Multipanner} {data : Dataset}
    (ha : Multipanner.Assembled g id m g')
    (hrun : (Multipanner.assemble data).run g = (.ok id, g')) {y : NodeId}
    (hy : y ∈ id :: m.inside) : Fresh g g' y := by
  obtain ⟨n, hn⟩ : ∃ n, g'.node y = .ok n := by
    rcases List.mem_cons.mp hy with rfl | hin
    · obtain ⟨_, _, hid⟩ := ha.panner
      exact ⟨_, hid⟩
    · obtain ⟨n, hn, -⟩ := ha.member hin
      exact ⟨n, hn⟩
  have hhandle : g.handleAt y.index = y :=
    (ageless_assemble data g id g' hrun y.index).symm.trans (handleAt_of_node hn)
  refine ⟨Option.eq_none_iff_forall_ne_some.mpr fun m hm => ?_, hhandle, n, hn⟩
  exact ha.fresh y hy m (hhandle ▸ node_handleAt.mpr hm)

theorem gives_assembled {g g' : Graph} {id : NodeId} {m : Multipanner} {data : Dataset}
    (ha : Multipanner.Assembled g id m g')
    (hrun : (Multipanner.assemble data).run g = (.ok id, g')) :
    (Deed.assemble data).gives g = id :: m.inside := by
  obtain ⟨_, _, hid⟩ := ha.panner
  have hfind : Multipanner.find g' id = .ok m := Multipanner.find_eq_ok.mpr ⟨_, hid, rfl⟩
  change ((Multipanner.assemble data).run g).1.toOption.toList.flatMap
    (((Multipanner.assemble data).run g).2.family ·) = _
  rw [hrun]
  change g'.family id ++ [] = _
  rw [List.append_nil, Graph.family, hfind]

theorem gives_of_error {g : Graph} {data : Dataset} {e : Failure}
    (hrun : (Multipanner.assemble data).run g = (.error e, g)) :
    (Deed.assemble data).gives g = [] := by
  change ((Multipanner.assemble data).run g).1.toOption.toList.flatMap _ = []
  rw [hrun]
  rfl

theorem Deed.fresh {α : Type} {g : Graph} (h : g.Sound) (d : Deed α) :
    (d.gives g).Nodup ∧ ∀ y ∈ d.gives g, d.vacates g = [] ∧ Fresh g (d.after g) y := by
  cases d with
  | associate kind layout =>
    change ((Graph.associate kind layout).run g).1.toOption.toList.Nodup ∧
      ∀ y ∈ ((Graph.associate kind layout).run g).1.toOption.toList,
        g.spent ((Graph.associate kind layout).run g).1 = [] ∧
          Fresh g ((Graph.associate kind layout).run g).2 y
    rcases hrun : (Graph.associate kind layout).run g with ⟨e | id, g'⟩
    · exact ⟨.nil, fun y hy => absurd hy List.not_mem_nil⟩
    · obtain ⟨rfl, halive, -⟩ := h.aged_associate_ok hrun
      refine ⟨List.nodup_singleton _, fun y hy => ?_⟩
      cases List.mem_singleton.mp hy
      exact ⟨rfl, h.arena.nodeAt?_nextSlot, rfl, halive⟩
  | assemble data =>
    cases hq : HrtfPanner.new data with
    | error a =>
      rw [gives_of_error (Multipanner.run_assemble_of_error hq)]
      exact ⟨.nil, fun y hy => absurd hy List.not_mem_nil⟩
    | ok q =>
      obtain ⟨id, m, g', hrun, ha⟩ := Multipanner.run_assemble h hq
      have hafter : (Deed.assemble data).after g = g' := congrArg Prod.snd hrun
      rw [gives_assembled ha hrun, hafter]
      exact ⟨ha.nodup, fun y hy => ⟨rfl, fresh_assembled ha hrun hy⟩⟩
  | _ => exact ⟨.nil, fun y hy => absurd hy List.not_mem_nil⟩

/-- **A handle that is given out is the one its slot had while it was empty.** -/
theorem Happening.fresh {g : Graph} (h : g.Sound) (k : Happening) :
    (k.gives g).Nodup ∧ ∀ y ∈ k.gives g, k.vacates g = [] ∧ Fresh g (k.after g) y := by
  cases k with
  | deed d => exact d.fresh h
  | _ => exact ⟨.nil, fun y hy => absurd hy List.not_mem_nil⟩

/-! ## Counting -/

/-- The slots that happenings vacate, in order. -/
def vacations : Graph → List Happening → List Nat
  | _, [] => []
  | g, k :: ks => k.vacates g ++ vacations (k.after g) ks

/-- The handles that happenings give out, in order. -/
def given : Graph → List Happening → List NodeId
  | _, [] => []
  | g, k :: ks => k.gives g ++ given (k.after g) ks

theorem Graph.Aged.generation {g g' : Graph} {gone : List Nat} (h : Aged g g' gone) (i : Nat) :
    (g'.handleAt i).generation = (g.handleAt i).generation + UInt32.ofNat (gone.count i) := by
  by_cases hi : i ∈ gone
  · rw [h.aged i hi, h.nodup.count, if_pos hi]
    rfl
  · rw [h.handle i hi, List.count_eq_zero.mpr hi]
    exact (UInt32.add_zero _).symm

/-- **The generation of a slot counts how often it was vacated.** -/
theorem generation_replay {g : Graph} (h : g.Sound) (ks : List Happening) (i : Nat) :
    ((replay g ks).handleAt i).generation
      = (g.handleAt i).generation + UInt32.ofNat ((vacations g ks).count i) := by
  induction ks generalizing g with
  | nil => exact (UInt32.add_zero _).symm
  | cons k ks ih =>
    rw [replay_cons, ih (h.happening k), (k.aged h).generation, vacations, List.count_append,
      UInt32.ofNat_add, UInt32.add_assoc]

/-- **A handle whose node is gone stays stale** until its slot was vacated `2 ^ 32` times. -/
theorem stale_of_vacated {g : Graph} (h : g.Sound) {x : NodeId} {k : Happening}
    (hx : g.contains x = true) (hgone : (k.after g).contains x = false) (ks : List Happening)
    (hcount : (vacations g (k :: ks)).count x.index < 2 ^ 32) :
    (replay g (k :: ks)).node x = .error (.staleNode x) := by
  obtain ⟨n, hn⟩ := contains_iff.mp hx
  have hvacated : x.index ∈ k.vacates g := by
    by_contra hnot
    rw [((k.aged h).contains hn).mpr hnot] at hgone
    cases hgone
  have hpos : 0 < (vacations g (k :: ks)).count x.index :=
    List.count_pos_iff.mpr (List.mem_append_left _ hvacated)
  refine node_eq_error fun m hm => ?_
  have hgeneration := generation_replay h (k :: ks) x.index
  rw [handleAt_of_node hm, handleAt_of_node hn] at hgeneration
  have hzero := congrArg UInt32.toNat (UInt32.left_eq_add.mp hgeneration)
  rw [UInt32.toNat_ofNat', UInt32.toNat_zero] at hzero
  omega

/-- All handles given out so far differ, and each is the handle of a node or has a generation that
its slot is past. -/
structure Accounted (handles : List NodeId) (vacated : List Nat) (g : Graph) : Prop where
  nodup : handles.Nodup
  generation : ∀ i, (g.handleAt i).generation = UInt32.ofNat (vacated.count i)
  spent : ∀ y ∈ handles, y.generation.toNat < vacated.count y.index ∨
    y.generation.toNat = vacated.count y.index ∧ ∃ n, g.nodeAt? y.index = some n

theorem Accounted.happening {handles : List NodeId} {vacated : List Nat} {g : Graph}
    (h : Accounted handles vacated g) (hs : g.Sound) (k : Happening)
    (hcount : ∀ i, vacated.count i < 2 ^ 32) :
    Accounted (handles ++ k.gives g) (vacated ++ k.vacates g) (k.after g) := by
  have haged := k.aged hs
  obtain ⟨hnodup, hfresh⟩ := k.fresh hs
  have hnew : ∀ y ∈ k.gives g, y.generation.toNat = vacated.count y.index := by
    intro y hy
    have hgeneration := h.generation y.index
    rw [(hfresh y hy).2.handle] at hgeneration
    rw [hgeneration, UInt32.toNat_ofNat', Nat.mod_eq_of_lt (hcount _)]
  refine ⟨List.nodup_append.mpr ⟨h.nodup, hnodup, ?_⟩, fun i => ?_, fun y hy => ?_⟩
  · -- a handle of before is spent or good, and its slot is empty when it is given out again
    rintro y hy z hz rfl
    rcases h.spent y hy with hlt | ⟨-, n, hn⟩
    · exact absurd (hnew y hz) (Nat.ne_of_lt hlt)
    · cases hn.symm.trans (hfresh y hz).2.empty
  · rw [haged.generation, h.generation, List.count_append, UInt32.ofNat_add]
  · rw [List.count_append]
    rcases List.mem_append.mp hy with hy | hy
    · rcases h.spent y hy with hlt | ⟨heq, n, hn⟩
      · exact .inl (Nat.lt_add_right _ hlt)
      · by_cases hvacated : y.index ∈ k.vacates g
        · have hpos := List.count_pos_iff.mpr hvacated
          exact .inl (by omega)
        · rw [List.count_eq_zero.mpr hvacated]
          exact .inr ⟨heq, haged.lives _ hvacated n hn⟩
    · obtain ⟨hnone, -, -, n, hn⟩ := hfresh y hy
      rw [hnone, List.count_nil]
      exact .inr ⟨hnew y hy, n, nodeAt?_of_node hn⟩

theorem Accounted.replay {handles : List NodeId} {vacated : List Nat} {g : Graph}
    (h : Accounted handles vacated g) (hs : g.Sound) (ks : List Happening)
    (hcount : ∀ i, (vacated ++ vacations g ks).count i < 2 ^ 32) :
    Accounted (handles ++ given g ks) (vacated ++ vacations g ks) (replay g ks) := by
  induction ks generalizing handles vacated g with
  | nil =>
    rw [given, vacations, List.append_nil, List.append_nil]
    exact h
  | cons k ks ih =>
    rw [vacations, ← List.append_assoc] at hcount
    rw [given, vacations, ← List.append_assoc, ← List.append_assoc]
    refine ih (h.happening hs k fun i => ?_) (hs.happening k) hcount
    have hi := hcount i
    rw [List.count_append, List.count_append] at hi
    omega

/-- **No handle is given out twice** before its slot was vacated `2 ^ 32` times. -/
theorem nodup_given (rate capacity : Nat) {ks : List Happening}
    (hcount : ∀ i, (vacations (Graph.new rate capacity) ks).count i < 2 ^ 32) :
    (given (Graph.new rate capacity) ks).Nodup := by
  have hstart : Accounted [] [] (Graph.new rate capacity) :=
    ⟨.nil, fun _ => rfl, fun y hy => absurd hy List.not_mem_nil⟩
  exact (hstart.replay (sound_new rate capacity) ks hcount).nodup

/-! ## Commands on stale handles -/

/-- The label of the node that a command about one node looks up before it does anything else.
Asking whether a node is there refuses nothing, and a standard map is looked up by its number of
channels first. -/
def Command.subject? : Command → Option Label
  | .disconnect label _ | .remove label | .set label _ _ | .reset label _ | .inspect label _ _
  | .edit label _ | .process label | .recomputeMap label | .markRecompute label
  | .multipanner label _ | .observe _ label _ _ _ _ _ => some label
  | .ask _ .contains => none
  | .ask label _ => some label
  | .standardMap label channels => (ChannelMap.standard? channels).map fun _ => label
  | .associate .. | .connect .. | .summary | .checkConsistency => none

/-- The setter refuses stale handles before anything else. -/
def Wary (set : Setter) : Prop := ∀ s x p v, s.graph.node x = .error (.staleNode x) →
  (set x p v).run s = (.error (.refused (.staleNode x)), s)

section Stale

variable {g : Graph} {x : NodeId} (hx : g.node x = .error (.staleNode x))

include hx

theorem index_of_stale : g.index x = .error (.staleNode x) := by
  rw [Graph.index, hx]
  rfl

theorem property_of_stale (p : PropertyId) : g.property x p = .error (.staleNode x) := by
  rw [Graph.property, hx]
  rfl

theorem PropertyQuery.answer_stale (p : PropertyId) (query : PropertyQuery) :
    query.answer g x p = .error (.staleNode x) := by
  cases query <;>
    simp only [answer, Graph.value, Graph.float, Graph.int, Graph.floatArray, Graph.floatArrayAt,
      property_of_stale hx] <;> rfl

theorem NodeQuery.answer_stale {query : NodeQuery} (hquery : query ≠ .contains) :
    query.answer g x = .error (.staleNode x) := by
  cases query with
  | contains => exact absurd rfl hquery
  | _ =>
    simp only [answer, Graph.inputCount, Graph.outputCount, incomingCount, Graph.downstream,
      outputBlocks, checkOutputWidth, index_of_stale hx, hx]
    rfl

end Stale

theorem wary_setWith (run : Event → Observer → Action Unit) : Wary (setWith run) := by
  intro s x p v hx
  rw [setWith]
  refine run_bind_error (run_read_error ?_)
  rw [property_of_stale hx]
  rfl

theorem wary_set : Wary Session.set := by
  intro s x p v hx
  rw [Session.set, run_bind_ok (run_get s)]
  exact wary_setWith _ s x p v hx

/-- **A command about a node that is gone is refused, and changes nothing.** -/
theorem run_stale {set : Setter} (hset : Wary set) {s : Session} {x : NodeId}
    (hx : s.graph.node x = .error (.staleNode x)) {label : Label}
    (hl : s.nodes.get? label = some x) {c : Command} (hc : c.subject? = some label) :
    (perform set c).run s = (.error (.refused (.staleNode x)), s) := by
  have hpublic : s.graph.publicIndex x = .error (.staleNode x) :=
    publicIndex_of_stale fun n hn => by
      rw [hx] at hn
      cases hn
  cases c with
  | disconnect =>
    cases hc
    rw [perform, run_bind_ok (run_node hl)]
    refine run_bind_error (run_change_error ?_)
    rw [disconnect, hpublic]
    rfl
  | remove =>
    cases hc
    rw [perform, run_bind_ok (run_node hl)]
    refine run_bind_error (run_change_error ?_)
    rw [Graph.remove, hpublic]
    rfl
  | set =>
    cases hc
    rw [perform, run_bind_ok (run_node hl)]
    exact run_bind_error (hset s x _ _ hx)
  | reset =>
    cases hc
    rw [perform, run_bind_ok (run_node hl)]
    exact run_bind_error (run_read_error (property_of_stale hx _))
  | inspect =>
    cases hc
    rw [perform, run_bind_ok (run_node hl)]
    exact run_read_error (PropertyQuery.answer_stale hx _ _)
  | ask other query =>
    have hquery : query ≠ .contains ∧ other = label := by
      cases query <;> simp_all [Command.subject?]
    rw [perform, hquery.2, run_bind_ok (run_node hl)]
    exact run_read_error (NodeQuery.answer_stale hx hquery.1)
  | edit other change =>
    cases hc
    have hedit : (Action.onGraph (Graph.edit x change)).run s
        = (.error (.refused (.staleNode x)), s) := by
      have hread : (GraphM.read fun g => do editLayout (← g.node x).layout change).run s.graph
          = (.error (.refused (.staleNode x)), s.graph) := by
        rw [run_read, hx]
        rfl
      rw [run_onGraph, Graph.edit, run_bind_error hread]
    rw [perform, run_bind_ok (run_node hl)]
    exact run_bind_error hedit
  | process =>
    cases hc
    have hpull : s.graph.pull x = .error (.refused (.staleNode x)) := by
      rw [Graph.pull, index_of_stale hx]
      rfl
    rw [perform, run_bind_ok (run_node hl)]
    refine run_bind_error ?_
    rw [run_onGraph, run_update, hpull]
  | standardMap other channels =>
    obtain ⟨angles, hangles, rfl⟩ := Option.map_eq_some_iff.mp hc
    rw [perform, run_bind_ok (run_node hl), configureStandardMap, hangles]
    refine run_bind_error (run_bind_error (run_read_error ?_))
    rw [hx]
    rfl
  | recomputeMap =>
    cases hc
    have hrecompute : (Graph.recomputeMap x).run s.graph
        = (.error (.refused (.staleNode x)), s.graph) := by
      refine run_bind_error ?_
      rw [run_read, hx]
      rfl
    rw [perform, run_bind_ok (run_node hl)]
    refine run_bind_error ?_
    rw [run_onGraph, hrecompute]
  | markRecompute =>
    cases hc
    rw [perform, run_bind_ok (run_node hl)]
    refine run_bind_error (run_change_error ?_)
    rw [Graph.markRecompute, hx]
    rfl
  | multipanner =>
    cases hc
    rw [perform, run_bind_ok (run_node hl)]
    refine run_bind_error (run_read_error ?_)
    rw [Multipanner.find, hx]
    rfl
  | observe =>
    cases hc
    rw [perform, run_bind_ok (run_node hl)]
    refine run_bind_error (run_change_error ?_)
    rw [addObserver, property_of_stale hx]
    rfl
  | _ => cases hc

/-- Nothing is found under the handle: it names no node, and every command that looks it up first
is refused and changes nothing. -/
structure Graph.Stale (g : Graph) (x : NodeId) : Prop where
  contains : g.contains x = false
  node : g.node x = .error (.staleNode x)
  commands : ∀ (s : Session) (set : Setter) (c : Command) (label : Label), s.graph = g →
    s.nodes.get? label = some x → c.subject? = some label →
    (set = Session.set ∨ ∃ run, set = setWith run) →
    (perform set c).run s = (.error (.refused (.staleNode x)), s)

theorem stale_of_node {g : Graph} {x : NodeId} (hx : g.node x = .error (.staleNode x)) :
    g.Stale x where
  contains := by
    rw [Graph.contains, hx]
    rfl
  node := hx
  commands := by
    rintro s set c label rfl hl hc (rfl | ⟨run, rfl⟩)
    · exact run_stale wary_set hx hl hc
    · exact run_stale (wary_setWith run) hx hl hc

/-! ## The course of a session -/

/-- **Handles are never revived**, as long as their slots were vacated fewer than `2 ^ 32` times. -/
theorem handles_of_tale (rate capacity : Nat) (steps : List Step) :
    -- once its node is gone, nothing is found under a handle again
    (∀ hs k ks, hs ++ k :: ks <+: ((Session.new rate capacity).tale steps).happenings →
      ∀ x, (replay (Session.new rate capacity).graph hs).contains x = true →
        (replay (Session.new rate capacity).graph (hs ++ [k])).contains x = false →
        (vacations (replay (Session.new rate capacity).graph hs) (k :: ks)).count x.index < 2 ^ 32 →
          (replay (Session.new rate capacity).graph (hs ++ k :: ks)).Stale x) ∧
    -- a node that is alive is found under one handle, which no other node has at that time
    (∀ g, (Session.new rate capacity).Course steps g → ∀ i n, g.nodeAt? i = some n →
      (∀ x, g.contains x = true ∧ x.index = i ↔ x = g.handleAt i) ∧
      ∀ j m, g.nodeAt? j = some m → j ≠ i → g.handleAt j ≠ g.handleAt i) ∧
    -- all handles that are given out differ
    ((∀ i, (vacations (Session.new rate capacity).graph
        ((Session.new rate capacity).tale steps).happenings).count i < 2 ^ 32) →
      (given (Session.new rate capacity).graph
        ((Session.new rate capacity).tale steps).happenings).Nodup) := by
  refine ⟨fun hs k ks _ x hx hgone hcount => ?_, fun g _ i n hn => ⟨fun x => ?_, fun j m _ hji => ?_⟩,
    nodup_given _ capacity⟩
  · rw [replay_append] at hgone ⊢
    have hsound := (sound_new (max rate 1) capacity).replay hs
    exact stale_of_node (stale_of_vacated hsound hx hgone ks hcount)
  · constructor
    · rintro ⟨hx, rfl⟩
      obtain ⟨m, hm⟩ := contains_iff.mp hx
      exact (handleAt_of_node hm).symm
    · rintro rfl
      exact ⟨contains_iff.mpr ⟨n, node_handleAt.mpr hn⟩, rfl⟩
  · exact fun heq => hji (congrArg NodeId.index heq)

/-- A node is removed, another is given up in its slot, and a third one takes it. -/
def thirdInLine : List Step :=
  [.create "first" (.gain 1), .command (.remove "first"),
    .command (.associate "second" .gain (.symmetric 17)), .create "third" (.gain 1)]

/-- What happens in it, from the removal on. -/
def fromRemoval : List Happening :=
  [.deed (.remove ⟨0, 0⟩), .deed (.associate .gain (.symmetric 17)),
    .deed (.associate .gain (.symmetric 1))]

theorem happenings_thirdInLine : ((Session.new 44100 64).tale thirdInLine).happenings
    = [.deed (.associate .gain (.symmetric 1))] ++ fromRemoval := rfl

/-- Who is there, which slots are vacated, and which handles are given out. -/
theorem view_thirdInLine :
    let g := (Session.new 44100 64).graph
    let begun := replay g [.deed (.associate .gain (.symmetric 1))]
    begun.contains ⟨0, 0⟩ = true ∧
    (replay begun [.deed (.remove ⟨0, 0⟩)]).contains ⟨0, 0⟩ = false ∧
    vacations begun fromRemoval = [0, 0] ∧
    vacations g ([.deed (.associate .gain (.symmetric 1))] ++ fromRemoval) = [0, 0] ∧
    given g ([.deed (.associate .gain (.symmetric 1))] ++ fromRemoval) = [⟨0, 0⟩, ⟨0, 2⟩] ∧
    (replay begun fromRemoval).contains ⟨0, 2⟩ = true := by
  decide +kernel

theorem handles_thirdInLine :
    ((Session.new 44100 64).afterSteps thirdInLine).graph.Stale ⟨0, 0⟩ ∧
    ((Session.new 44100 64).afterSteps thirdInLine).graph.contains ⟨0, 2⟩ = true ∧
    (given (Session.new 44100 64).graph
      ((Session.new 44100 64).tale thirdInLine).happenings).Nodup := by
  obtain ⟨hstale, -, hnodup⟩ := handles_of_tale 44100 64 thirdInLine
  obtain ⟨hthere, hgone, hfrom, hall, -, hthird⟩ := view_thirdInLine
  rw [happenings_thirdInLine] at hstale hnodup
  rw [← replay_tale, happenings_thirdInLine]
  refine ⟨hstale _ _ _ List.prefix_rfl ⟨0, 0⟩ hthere hgone ?_, hthird, hnodup fun i => ?_⟩
  · refine Nat.lt_of_le_of_lt List.count_le_length ?_
    exact hfrom ▸ (by decide : 2 < 2 ^ 32)
  · refine Nat.lt_of_le_of_lt List.count_le_length ?_
    exact hall ▸ (by decide : 2 < 2 ^ 32)

end SpatialAudio
