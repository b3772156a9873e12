import SpatialAudio.Proofs.Runs
import SpatialAudio.Proofs.Setting

/-!
# Proofs/Steadiness — operations that leave nodes in place, with their observers

Most operations of a graph keep every slot, as far as handles and observers show: its handle stays
good, and of the properties of its node only values and marks change (`Steady`).  Adding and
removing nodes keeps the slots that are not vacated, and a slot that is vacated moves on by one
generation (`Spares`).  Of the commands, only those that add or remove nodes, or set or observe
properties, are not steady (`calm_perform`).
-/

namespace SpatialAudio

namespace Graph

variable {g g' g'' : Graph} {x id : NodeId} {n : Node} {i : Nat}

/-! ## Slots -/

/-- A slot keeps its handle, and of the properties of its node all but values and marks. -/
structure Stays (g g' : Graph) (i : Nat) : Prop where
  handle : g'.handleAt i = g.handleAt i
  frame : ∀ n, g.nodeAt? i = some n →
    ∃ n', g'.nodeAt? i = some n' ∧ n'.properties.frame = n.properties.frame

/-- All slots stay. -/
structure Steady (g g' : Graph) : Prop where
  sound : g'.Sound
  stays : ∀ i, Stays g g' i

/-- Slots stay or are vacated. -/
structure Spares (g g' : Graph) : Prop where
  sound : g'.Sound
  stays : ∀ i, Stays g g' i ∨ (g'.handleAt i).generation = (g.handleAt i).generation + 1

theorem Stays.trans (h : Stays g g' i) (h' : Stays g' g'' i) : Stays g g'' i := by
  refine ⟨h'.handle.trans h.handle, fun n hn => ?_⟩
  obtain ⟨n', hn', hframe⟩ := h.frame n hn
  obtain ⟨n'', hn'', hframe'⟩ := h'.frame n' hn'
  exact ⟨n'', hn'', hframe'.trans hframe⟩

theorem Stays.node (h : Stays g g' x.index) (hn : g.node x = .ok n) :
    ∃ n', g'.node x = .ok n' ∧ n'.properties.frame = n.properties.frame := by
  obtain ⟨hat, hid⟩ := node_eq_ok.mp hn
  obtain ⟨n', hn', hframe⟩ := h.frame n hat
  exact ⟨n', node_eq_ok.mpr ⟨hn', h.handle.trans hid⟩, hframe⟩

theorem stays_of_slots (h : g'.slots = g.slots) (i : Nat) : Stays g g' i := by
  refine ⟨by rw [handleAt, handleAt, h], fun n hn => ⟨n, ?_, rfl⟩⟩
  rw [nodeAt?, h]
  exact hn

theorem Within.stays {R : Node → Node → Prop} (h : Within R g g')
    (hR : ∀ {n n' : Node}, R n n' → n'.properties.frame = n.properties.frame) (i : Nat) :
    Stays g g' i := by
  refine ⟨h.handleAt i, fun n hn => ?_⟩
  obtain ⟨n', hn', hr⟩ := h.forth i n hn
  exact ⟨n', hn', hR hr⟩

theorem stays_modifyAt {j : Nat} {f : Node → Node}
    (hf : ∀ n, g.nodeAt? j = some n → (f n).properties.frame = n.properties.frame) (i : Nat) :
    Stays g (g.modifyAt j f) i :=
  (within_modifyAt (R := fun n n' => n'.properties.frame = n.properties.frame) (fun _ => rfl)
    hf).stays id i

theorem Steady.refl (h : g.Sound) : Steady g g := ⟨h, stays_of_slots rfl⟩

theorem Steady.trans (h : Steady g g') (h' : Steady g' g'') : Steady g g'' :=
  ⟨h'.sound, fun i => (h.stays i).trans (h'.stays i)⟩

theorem Steady.trans_spares (h : Steady g g') (h' : Spares g' g'') : Spares g g'' := by
  refine ⟨h'.sound, fun i => ?_⟩
  rcases h'.stays i with hstays | hgen
  · exact .inl ((h.stays i).trans hstays)
  · rw [(h.stays i).handle] at hgen
    exact .inr hgen

theorem Steady.spares (h : Steady g g') : Spares g g' := ⟨h.sound, fun i => .inl (h.stays i)⟩

/-- Moves after which every slot is as before. -/
theorem Sound.steady (h : g.Sound) (hm : g.Move g') (hstays : ∀ i, Stays g g' i) : Steady g g' :=
  ⟨h.move hm, hstays⟩

theorem slots_connectAt {a o b k : Nat} (hc : g.connectAt a o b k = .ok g') :
    g'.slots = g.slots := by
  obtain ⟨s, t, -, -, -, -, rfl⟩ := connectAt_eq_ok.mp hc
  split
  · rfl
  · rw [slots_reschedule]

theorem slots_disconnectAt {a o : Nat} (hc : g.disconnectAt a o = .ok g') :
    g'.slots = g.slots := by
  obtain ⟨s, r, -, -, rfl⟩ := disconnectAt_eq_ok.mp hc
  split
  · rw [slots_reschedule]
  · rfl

theorem Sound.steady_applyLayout (h : g.Sound) {l : Layout} (happly : g.applyLayout id l = .ok g') :
    Steady g g' := by
  obtain ⟨n, hn, -⟩ := h.exists_applyLayout happly
  obtain ⟨-, -, rfl⟩ := (applyLayout_eq_ok h.wellFormed hn).mp happly
  refine h.steady (.applyLayout happly) (stays_modifyAt fun m _ => ?_)
  rw [rearrange_properties]

theorem Sound.steady_kind (h : g.Sound) (i : Nat) (k : NodeKind) :
    Steady g (g.modifyAt i fun n => { n with kind := k }) :=
  h.steady (.kind g i fun _ => k) (stays_modifyAt fun _ _ => rfl)

theorem Sound.steady_recomputeMap (h : g.Sound) (id : NodeId) :
    Steady g ((Graph.recomputeMap id).run g).2 := by
  by_cases hex : ∃ n q, g.node id = .ok n ∧ n.kind = .amplitudePanner q
  · obtain ⟨n, q, hn, hk⟩ := hex
    have hstaged : g.modifyAt id.index (fun _ => staged q n) = g.modifyAt id.index fun m =>
        { m with kind := .amplitudePanner (q.stage n.properties).1 } :=
      modifyAt_congr (nodeAt?_of_node hn) _ rfl
    have hsteady := h.steady_kind id.index (.amplitudePanner (q.stage n.properties).1)
    rw [run_recomputeMap hn hk, hstaged]
    split
    · next g' happly => exact hsteady.trans (hsteady.sound.steady_applyLayout happly)
    · exact hsteady.trans (hsteady.sound.steady_kind _ _)
  · obtain ⟨e, hrun⟩ := run_recomputeMap_of_not fun n q hn hk => hex ⟨n, q, hn, hk⟩
    rw [hrun]
    exact .refl h

theorem Sound.steady_markRecompute (h : g.Sound) (hm : g.markRecompute id = .ok g') :
    Steady g g' := by
  obtain ⟨n, -, hm⟩ := bind_eq_ok.mp hm
  obtain ⟨q, -, hm⟩ := bind_eq_ok.mp hm
  cases hm
  exact h.steady_kind _ _

theorem Sound.steady_store (h : g.Sound) {p : PropertyId} {v : PropertyValue}
    (hstore : g.store id p v = .ok g') : Steady g g' := by
  obtain ⟨x, hx, hstore⟩ := bind_eq_ok.mp hstore
  obtain ⟨n, hn, -⟩ := property_eq_ok.mp hx
  cases hstore
  refine h.steady (.property g id p _) ?_
  rw [modifyProperty_of_node hn]
  exact stays_modifyAt fun m _ => Properties.frame_store _ _ _

theorem Sound.steady_pulled (h : g.Sound) (hp : Pulled g g') : Steady g g' := by
  induction hp with
  | refl => exact .refl h
  | tail _ hstep ih =>
    refine ih.trans ?_
    cases hstep with
    | played hw =>
      exact ⟨ih.sound.pullStep (.played hw),
        hw.stays fun hplayed => Properties.frame_of_clearModified hplayed.properties⟩
    | arranged i n q hn hk happly =>
      exact ih.sound.steady_applyLayout (applyLayout_handleAt hn happly)

theorem Sound.steady_pull (h : g.Sound) (hp : g.pull id = .ok g') : Steady g g' := by
  obtain ⟨root, ⟨n, hn⟩, hroot, hpulled⟩ := pull_eq_ok hp
  rw [h.nested.sourceSide hn] at hroot
  cases hroot
  obtain ⟨m, hm⟩ := h.nested.exists_sourceEnd hn
  refine (h.steady (.scheduleFor (node_handleAt.mpr hm)) (stays_of_slots ?_)).trans
    ((h.scheduleFor hm).steady_pulled hpulled)
  rw [Graph.scheduleFor]
  split <;> rfl

/-! ## Adding and removing nodes -/

theorem generation_vacate (hi : i < g.slots.length) :
    ((g.vacate i).handleAt i).generation = (g.handleAt i).generation + 1 := by
  simp [vacate, handleAt, hi]

theorem stays_place (ha : g.Arena) (n : Node) (i : Nat) : Stays g (g.place n).2 i := by
  refine ⟨handleAt_place g n i, fun m hm => ⟨m, ?_, rfl⟩⟩
  rw [nodeAt?_place ha, if_neg, hm]
  rintro rfl
  rw [ha.nodeAt?_nextSlot] at hm
  cases hm

/-- **Adding a node spares all others.** -/
theorem Sound.spares_associate (h : g.Sound) (k : NodeKind) (l : Layout) :
    Spares g ((Graph.associate k l).run g).2 := by
  have hplaced : (g.place (blank k)).2.nodeAt? g.nextSlot = some (blank k) := by
    rw [nodeAt?_place h.arena, if_pos rfl]
  have hplace : Steady g (g.place (blank k)).2 := ⟨h.place k, stays_place h.arena _⟩
  rw [associate_run]
  split
  · next g' happly =>
    exact (hplace.trans
      (hplace.sound.steady_applyLayout (applyLayout_handleAt hplaced happly))).spares
  · refine ⟨h.vacate_place k, fun i => ?_⟩
    by_cases hi : i = g.nextSlot
    · subst hi
      refine .inr ?_
      rw [generation_vacate (lt_of_nodeAt? hplaced), handleAt_place]
    · refine .inl ((hplace.stays i).trans ⟨handleAt_vacate _ hi, fun n hn => ⟨n, ?_, rfl⟩⟩)
      rw [nodeAt?_vacate, if_neg hi, hn]

theorem generation_retire (hi : i < g.slots.length) :
    ((g.retire i).handleAt i).generation = (g.handleAt i).generation + 1 := by
  rw [retire]
  split <;> exact generation_vacate hi

theorem generation_foldl_retire (ha : g.Arena) {gone : List Nat} (hnd : gone.Nodup)
    (hlive : ∀ j ∈ gone, ∃ n, g.nodeAt? j = some n) (hi : i ∈ gone) :
    ((gone.foldl retire g).handleAt i).generation = (g.handleAt i).generation + 1 := by
  induction gone generalizing g with
  | nil => exact absurd hi List.not_mem_nil
  | cons j gone ih =>
    obtain ⟨hj, hnd'⟩ := List.nodup_cons.mp hnd
    obtain ⟨n, hn⟩ := hlive j List.mem_cons_self
    have hrest : ∀ k ∈ gone, ∃ n, (g.retire j).nodeAt? k = some n := by
      intro k hk
      rw [nodeAt?_retire, if_neg (ne_of_mem_of_not_mem hk hj)]
      exact hlive k (List.mem_cons_of_mem j hk)
    rw [List.foldl_cons]
    rcases List.mem_cons.mp hi with rfl | hi
    · rw [(retired_foldl (ha.retire hn) hnd' hrest).handleAt i hj,
        generation_retire (lt_of_nodeAt? hn)]
    · rw [ih (ha.retire hn) hnd' hrest hi, handleAt_retire g (ne_of_mem_of_not_mem hi hj)]

/-- **Removing a node spares all that are not removed with it.** -/
theorem Sound.spares_remove (h : g.Sound) (hr : g.remove id = .ok g') : Spares g g' := by
  have hs := h.remove hr
  obtain ⟨⟨n, hn, hown⟩, rfl⟩ := (remove_eq_ok h.toCoherent).mp hr
  have hret := h.toCoherent.retired hn hown
  have hslots := stays_of_slots (slots_reschedule ((g.household id).foldl Graph.retire g))
  refine ⟨hs, fun i => ?_⟩
  by_cases hi : i ∈ g.household id
  · refine .inr ?_
    rw [(hslots i).handle]
    exact generation_foldl_retire h.arena (nodup_household hn hown)
      (fun _ => exists_of_mem_household hn) hi
  · refine .inl (Stays.trans ⟨hret.handleAt i hi, fun n hn => ⟨n, ?_, rfl⟩⟩ (hslots i))
    rw [hret.nodeAt?, if_neg hi, hn]

end Graph

/-! ## Actions -/

open SpatialAudio.Graph

/-- Commands that neither add nor remove nodes, and neither set nor observe properties. -/
def Command.Plain : Command → Prop
  | .associate .. | .remove _ | .set .. | .reset .. | .standardMap .. | .observe .. => False
  | _ => True

section Calm

variable {α β : Type} {s : Session} {g : Graph}

/-- Wherever the action starts, all slots stay. -/
def Calm (a : Action α) : Prop := ∀ g, Keeps (Steady g) (Steady g) a

theorem inv_of_outcome {I : Graph → Prop} {r : Except Failure α × Session} (h : Outcome I I r) :
    I r.2.graph := by
  obtain ⟨(_ | _) | _, s⟩ := r <;> exact h

theorem Calm.steady {a : Action α} (h : Calm a) (hs : s.graph.Sound) :
    Steady s.graph (a.run s).2.graph := inv_of_outcome (h s.graph s (.refl hs))

theorem calm_onGraph {m : GraphM α} (hm : ∀ g : Graph, g.Sound → Steady g (m.run g).2) :
    Calm (.onGraph m) :=
  fun _ => keeps_onGraph (fun _ => id) fun g hg => hg.trans (hm g hg.sound)

theorem calm_update {f : Graph → Except Failure Graph}
    (hf : ∀ {g g' : Graph}, g.Sound → f g = .ok g' → Steady g g') :
    Calm (.onGraph (GraphM.update f)) :=
  calm_onGraph fun _ hg => inv_update (.refl hg) fun _ => hf hg

theorem calm_change {f : Graph → Except Error Graph}
    (hf : ∀ {g g' : Graph}, g.Sound → f g = .ok g' → Steady g g') : Calm (.change f) :=
  calm_onGraph fun _ hg => inv_change (.refl hg) fun _ => hf hg

theorem calm_applyLayout (id : NodeId) (l : Layout) :
    Calm (.onGraph (GraphM.update fun g => g.applyLayout id l)) :=
  calm_update fun hg happly => hg.steady_applyLayout happly

theorem calm_edit (id : NodeId) (e : LayoutEdit) : Calm (.onGraph (Graph.edit id e)) := by
  refine calm_onGraph fun g hg => ?_
  refine inv_bind (by rw [run_read]; exact .refl hg) fun l g₁ _ hg₁ => ?_
  refine inv_bind (inv_update hg₁ fun g' happly => ?_) fun _ _ _ hg₂ => hg₂
  exact hg₁.trans (hg₁.sound.steady_applyLayout happly)

theorem calm_dataset (label : Label) : Calm (Action.dataset label) := by
  intro g s hs
  refine outcome_named (fun _ => id) hs fun number _ => ?_
  rw [run_bind_ok (run_get s)]
  split <;> exact hs

theorem calm_addRing (capacity : Nat) : Calm (.onGraph (addRing capacity)) := by
  refine calm_onGraph fun g hg => ?_
  rw [addRing]
  split
  · exact .refl hg
  · exact hg.steady (.books g g.blocks g.faults _) (stays_of_slots rfl)

theorem calm_build (b : Blueprint) : Calm b.build := by
  intro g
  cases b with
  | samplePlayer samples rate => exact fun s hs => hs
  | hrtfPanner data =>
    exact (calm_dataset data g).bind fun d =>
      (keeps_onGraph (fun _ => id) fun _ => Stable.inv_hrtfKind d).bind fun k => keeps_pure _
  | ringSink capacity channels => exact (calm_addRing capacity g).bind fun ring => keeps_pure _
  | _ => exact keeps_pure _

/-- **A command that neither adds nor removes nodes, and neither sets nor observes properties,
leaves observers alone.** -/
theorem calm_perform (set : Setter) {c : Command} (hc : c.Plain) : Calm (perform set c) := by
  have hdone : ∀ {a : Action Unit}, Calm a → Calm (do a; return Answer.done) :=
    fun ha g => (ha g).bind fun _ => keeps_pure _
  intro g s hs
  cases c with
  | connect source outputSlot target inputSlot =>
    refine outcome_named (fun _ => id) hs fun a _ => outcome_named (fun _ => id) hs fun b _ => ?_
    refine hdone (calm_change fun hg hc => hg.steady (.connect hc) ?_) g s hs
    exact stays_of_slots (slots_connectAt (connect_eq_ok.mp hc).2.2)
  | disconnect label slot =>
    refine outcome_named (fun _ => id) hs fun id _ => ?_
    refine hdone (calm_change fun hg hc => hg.steady (.disconnect hc) ?_) g s hs
    exact stays_of_slots (slots_disconnectAt (disconnect_eq_ok.mp hc).2)
  | inspect label p query => exact outcome_named (fun _ => id) hs fun id _ => keeps_read s hs
  | ask label query => exact outcome_named (fun _ => id) hs fun id _ => keeps_read s hs
  | edit label change =>
    refine outcome_named (fun _ => id) hs fun id _ => ?_
    refine ((calm_edit id change g).bind fun slot => ?_) s hs
    cases slot <;> exact keeps_pure _
  | process label =>
    refine outcome_named (fun _ => id) hs fun id _ => ?_
    exact hdone (calm_update fun hg hp => hg.steady_pull hp) g s hs
  | recomputeMap label =>
    refine outcome_named (fun _ => id) hs fun id _ => ?_
    exact hdone (calm_onGraph fun g hg => hg.steady_recomputeMap id) g s hs
  | markRecompute label =>
    refine outcome_named (fun _ => id) hs fun id _ => ?_
    exact hdone (calm_change fun hg hm => hg.steady_markRecompute hm) g s hs
  | multipanner label binding =>
    refine outcome_named (fun _ => id) hs fun id _ => outcome_read hs fun m _ => ?_
    cases binding with
    | some stem => exact ((Stable.keeps_bindInterior stem m).bind fun _ => keeps_pure _) s hs
    | none => exact hs
  | summary => exact hs
  | checkConsistency => exact outcome_read hs fun _ _ => hs
  | _ => exact absurd hc nofun

theorem spares_performAssociate (set : Setter) (label : Label) (b : Blueprint) (l : Layout)
    (hs : s.graph.Sound) : Spares s.graph ((perform set (.associate label b l)).run s).2.graph := by
  have hbuild := (calm_build b).steady hs
  refine inv_of_outcome (outcome_bind (outcome_of_inv (fun _ => id) hbuild.spares)
    fun built s' hrun _ => ?_)
  rw [hrun] at hbuild
  obtain ⟨kind, ring⟩ := built
  have hspares : Spares s.graph ((associate kind l).run s'.graph).2 :=
    hbuild.trans_spares (hbuild.sound.spares_associate kind l)
  refine outcome_bind (outcome_bind (outcome_of_inv (fun _ => id) hspares) fun id s'' _ hs'' => ?_)
    fun _ _ _ hs'' => hs''
  refine ((Stable.keeps_bindNode label id).bind fun _ => ?_) s'' hs''
  cases ring with
  | some ring => exact Keeps.bind (keeps_modify fun _ => rfl) fun _ => keeps_pure id
  | none => exact keeps_pure id

theorem spares_performRemove (set : Setter) (label : Label) (hs : s.graph.Sound) :
    Spares s.graph ((perform set (.remove label)).run s).2.graph := by
  have hrefl : Spares s.graph s.graph := (Steady.refl hs).spares
  refine inv_of_outcome (outcome_named (fun _ => id) hrefl fun x _ => ?_)
  refine outcome_bind (outcome_of_inv (fun _ => id) ?_) fun _ _ _ hs' => hs'
  exact inv_change (f := fun g => g.remove x) hrefl fun _ => hs.spares_remove

end Calm

end SpatialAudio
