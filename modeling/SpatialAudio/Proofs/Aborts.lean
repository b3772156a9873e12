import SpatialAudio.Proofs.Plans

/-!
# Proofs/Aborts — only property changes are given up for nesting

A change of a property that is nested too deep is aborted with `Abort.nesting`.  No other operation
of a graph or a session ends so: whatever aborts a block, a layout or a lookup has a cause of its own
(`Deed.never_nesting`).  So a plan can end so only by setting properties.
-/

namespace SpatialAudio

open SpatialAudio.Graph

/-! ## Results that are not one error -/

section Avoids

variable {α : Type}

/-- A refusal is no abort. -/
theorem avoids_refusal (a : Abort) (x : Except Error α) :
    Avoids (.aborted a) (liftM x : Except Failure α) := by
  intro h
  obtain ⟨_, -, h⟩ := liftM_error_eq_error.mp h
  cases h

theorem Avoids.lift {a : Abort} {x : Except Abort α} (h : Avoids a x) :
    Avoids (.aborted a) (liftM x : Except Failure α) := by
  cases x with
  | ok b => exact avoids_ok b
  | error a' => exact avoids_error fun heq => h (congrArg Except.error (Failure.aborted.inj heq))

end Avoids

/-- The operation ends with another result than the error `e`, wherever it starts. -/
def Never {ε σ α : Type} (e : ε) (m : ExceptT ε (StateM σ) α) : Prop := ∀ s, Avoids e (m.run s).1

section Never

variable {ε σ α β : Type} {e : ε}

theorem never_pure (a : α) : Never e (pure a : ExceptT ε (StateM σ) α) := fun _ => avoids_ok a

theorem Never.bind {m : ExceptT ε (StateM σ) α} {f : α → ExceptT ε (StateM σ) β} (hm : Never e m)
    (hf : ∀ a, Never e (f a)) : Never e (m >>= f) := by
  intro s
  have hs := hm s
  rw [run_bind]
  rcases hr : m.run s with ⟨_ | a, s'⟩
  · rw [hr] at hs
    exact avoids_error fun h => hs (congrArg Except.error h)
  · exact hf a s'

theorem never_modify (f : σ → σ) : Never e (modify f : ExceptT ε (StateM σ) PUnit) := fun _ =>
  avoids_ok _

theorem never_set (t : σ) : Never e (set t : ExceptT ε (StateM σ) PUnit) := fun _ => avoids_ok _

theorem never_get : Never e (get : ExceptT ε (StateM σ) σ) := fun _ => avoids_ok _

theorem never_throw {e' : ε} (h : e' ≠ e) : Never e (throw e' : ExceptT ε (StateM σ) α) := fun _ =>
  avoids_error h

theorem never_forM {f : α → ExceptT ε (StateM σ) PUnit} (hf : ∀ a, Never e (f a)) (as : List α) :
    Never e (as.forM f) := by
  induction as with
  | nil => exact never_pure _
  | cons a as ih => exact (hf a).bind fun _ => ih

end Never

section Graph

variable {α : Type} {a : Abort}

theorem never_graphRead (f : Graph → Except Error α) : Never (.aborted a) (GraphM.read f) := by
  intro g
  rw [run_read]
  cases f g with
  | ok b => exact avoids_ok b
  | error e => exact avoids_error nofun

theorem never_update {f : Graph → Except Failure Graph} (hf : ∀ g, Avoids (.aborted a) (f g)) :
    Never (.aborted a) (GraphM.update f) := by
  intro g
  have hg := hf g
  rw [run_update]
  cases hr : f g with
  | ok g' => exact avoids_ok ()
  | error e => exact avoids_error fun h => hg (hr.trans (congrArg Except.error h))

theorem never_change (f : Graph → Except Error Graph) : Never (.aborted a) (GraphM.change f) :=
  never_update fun g => avoids_refusal a (f g)

theorem never_onGraph {m : GraphM α} (h : Never (.aborted a) m) :
    Never (.aborted a) (Action.onGraph m) := fun s => h s.graph

theorem never_read (f : Graph → Except Error α) : Never (.aborted a) (Action.read f) :=
  never_onGraph (never_graphRead f)

end Graph

/-! ## Responses and convolvers -/

namespace Dataset

theorem lookUp_avoids (d : Dataset) (band index : Nat) : Avoids .nesting (d.lookUp band index) := by
  rw [lookUp]
  split
  · exact avoids_error nofun
  · exact avoids_ok _

theorem bandsAt_avoids (d : Dataset) (elevation : Float32) :
    Avoids .nesting (d.bandsAt elevation) := by
  rw [bandsAt]
  split
  · exact avoids_ok _
  · dsimp only
    split
    · exact avoids_error nofun
    · exact avoids_ok _

theorem bandContributions_avoids (d : Dataset) (band : Nat) (azimuth weight : Float32) :
    Avoids .nesting (d.bandContributions band azimuth weight) := by
  rw [bandContributions]
  split
  · exact avoids_ok _
  · split
    · exact avoids_error nofun
    · exact avoids_error nofun
    · exact avoids_ok _

theorem contributions_avoids (d : Dataset) (elevation azimuth : Float32) :
    Avoids .nesting (d.contributions elevation azimuth) := by
  refine (d.bandsAt_avoids elevation).bind fun bands => ?_
  refine (d.bandContributions_avoids _ _ _).bind fun below => ?_
  change Avoids Abort.nesting (if bands.2.1 ≠ bands.1 then _ else _)
  split
  · exact (d.bandContributions_avoids _ _ _).bind fun _ => avoids_ok _
  · exact avoids_ok _

theorem mono_avoids (d : Dataset) (elevation azimuth : Float32) (length : Nat) :
    Avoids .nesting (d.mono elevation azimuth length) := by
  refine (d.contributions_avoids _ _).bind fun parts => avoids_foldlM (fun out c => ?_) _ _
  refine (d.lookUp_avoids _ _).bind fun response => ?_
  cases response <;> exact avoids_ok _

theorem stereo_avoids (d : Dataset) (elevation azimuth : Float32) (length : Nat) :
    Avoids .nesting (d.stereo elevation azimuth length) :=
  (d.mono_avoids _ _ _).bind fun _ => (d.mono_avoids _ _ _).bind fun _ => avoids_ok _

end Dataset

theorem Convolver.setDirection_avoids (c : Convolver) (elevation azimuth : Float32)
    (crossfade : Bool) : Avoids .nesting (c.setDirection elevation azimuth crossfade) :=
  (c.data.stereo_avoids _ _ _).bind fun _ => avoids_ok _

theorem Memory.samples_avoids (count : Nat) (x : Float32) :
    Avoids .nesting (Memory.samples count x) := by
  refine Avoids.bind ?_ fun _ => avoids_ok _
  rw [reserve]
  split
  · exact avoids_ok _
  · exact avoids_error nofun

namespace HrtfPanner

theorem new_avoids (data : Dataset) : Avoids .nesting (HrtfPanner.new data) :=
  ((Memory.samples_avoids _ _).bind fun _ => Convolver.setDirection_avoids _ _ _ _).bind fun _ =>
    avoids_ok _

theorem process_avoids (q : HrtfPanner) (props : Properties) (inputs outputs : List Block) :
    Avoids .nesting (q.process props inputs outputs) := by
  refine Avoids.bind ?_ fun q' => ?_
  · rw [refresh]
    split
    · exact (Convolver.setDirection_avoids _ _ _ _).bind fun _ => avoids_ok _
    · exact avoids_ok _
  · split <;> exact avoids_ok _

end HrtfPanner

/-! ## Blocks -/

theorem RingSink.deliver_avoids (s : RingSink) (inputs : List Block) (ring : Ring) :
    Avoids .nesting (s.deliver inputs ring) := by
  rw [deliver]
  split
  · exact avoids_ok _
  · refine Avoids.bind ?_ fun length => ?_
    · rw [Memory.word]
      split
      · exact avoids_ok _
      · exact avoids_error nofun
    · split <;> exact avoids_ok _

theorem NodeKind.process_avoids (k : NodeKind) (rate : Nat) (props : Properties)
    (inputs outputs : List Block) (rings : List Ring) :
    Avoids .nesting (k.process rate props inputs outputs rings) := by
  cases k with
  | hrtfPanner q => exact (q.process_avoids _ _ _).bind fun _ => avoids_ok _
  | ringSink s =>
    rw [process]
    split
    · exact (s.deliver_avoids _ _).bind fun _ => avoids_ok _
    · exact avoids_ok _
  | _ => exact avoids_ok _

namespace Graph

theorem checkSlots_avoids (channels : Nat) (slots : List ChannelRange) :
    Avoids (.aborted .nesting) (checkSlots channels slots) := by
  induction slots with
  | nil => exact avoids_ok ()
  | cons r rest ih =>
    rw [checkSlots]
    split
    · exact ih
    · exact avoids_error nofun
    · exact avoids_error nofun

theorem applyLayoutAt_avoids (g : Graph) (i : Nat) (l : Layout) :
    Avoids (.aborted .nesting) (g.applyLayoutAt i l) := by
  rw [applyLayoutAt]
  split
  · exact avoids_ok _
  · refine Avoids.bind ?_ fun _ => avoids_ok _
    exact (avoids_refusal _ _).bind fun _ => (checkSlots_avoids _ _).bind fun _ =>
      (checkSlots_avoids _ _).bind fun _ => avoids_refusal _ _

theorem applyLayout_avoids (g : Graph) (id : NodeId) (l : Layout) :
    Avoids (.aborted .nesting) (g.applyLayout id l) :=
  (avoids_refusal _ _).bind fun i => g.applyLayoutAt_avoids i l

theorem proposeAll_avoids (schedule : List Nat) (g : Graph) :
    Avoids .nesting (proposeAll schedule g) := by
  induction schedule generalizing g with
  | nil => exact avoids_ok _
  | cons i rest ih =>
    rw [proposeAll]
    split
    · exact ih g
    · dsimp only
      split
      · exact ih _
      · next layout _ =>
        split
        · exact ih _
        · exact avoids_ok _
        · next a heq => exact avoids_error fun h => applyLayoutAt_avoids _ _ _ (h ▸ heq)

theorem processAt_avoids (g : Graph) (i : Nat) : Avoids .nesting (g.processAt i) := by
  rw [processAt]
  split
  · exact avoids_ok _
  · dsimp only
    split
    · exact avoids_ok _
    · exact (NodeKind.process_avoids _ _ _ _ _ _).bind fun _ => avoids_ok _

theorem pull_avoids (g : Graph) (id : NodeId) : Avoids (.aborted .nesting) (g.pull id) := by
  refine (avoids_refusal _ _).bind fun i => (avoids_refusal _ _).bind fun root =>
    (proposeAll_avoids _ _).lift.bind fun ⟨ready, refused⟩ => ?_
  cases refused with
  | some refusal => exact avoids_ok _
  | none => exact (avoids_foldlM processAt_avoids _ _).lift.bind fun _ => avoids_ok _

theorem never_associate (kind : NodeKind) (layout : Layout) :
    Never (.aborted .nesting) (associate kind layout) := by
  refine never_get.bind fun g => ?_
  cases g.place (blank kind)
  dsimp only
  split
  · exact (never_set _).bind fun _ => never_pure _
  · next e heq =>
    exact (never_set _).bind fun _ => never_throw fun h => applyLayoutAt_avoids _ _ _ (h ▸ heq)

theorem never_recomputeMap (id : NodeId) : Never (.aborted .nesting) (recomputeMap id) := by
  refine (never_graphRead _).bind fun n => (never_graphRead _).bind fun p =>
    (never_modify _).bind fun _ => never_get.bind fun g => ?_
  split
  · exact never_set _
  · next e heq =>
    exact (never_modify _).bind fun _ => never_throw fun h => applyLayout_avoids _ _ _ (h ▸ heq)

theorem never_hrtfKind (data : Dataset) : Never (.aborted .nesting) (hrtfKind data) := by
  rw [hrtfKind]
  split
  · exact never_pure _
  · next a heq =>
    exact never_throw fun h => HrtfPanner.new_avoids data (Failure.aborted.inj h ▸ heq)

theorem never_addRing (capacity : Nat) : Never (.aborted .nesting) (addRing capacity) := by
  have hroom : Never (.aborted .nesting) (do
      let g ← get
      set { g with rings := g.rings ++ [Ring.new capacity] }
      return g.rings.length : GraphM Nat) :=
    never_get.bind fun _ => (never_set _).bind fun _ => never_pure _
  rw [addRing]
  split
  · exact (never_throw (by decide)).bind fun _ => hroom
  · exact hroom

end Graph

/-! ## Deeds and other actions -/

theorem Multipanner.never_assemble (data : Dataset) :
    Never (.aborted .nesting) (Multipanner.assemble data) := by
  have hhrtf : Never (.aborted .nesting) (createHrtfPanner data) :=
    (never_hrtfKind data).bind fun _ => (never_associate _ _).bind fun _ =>
      (never_change _).bind fun _ => (never_change _).bind fun _ => never_pure _
  have hamplitude : Never (.aborted .nesting) createAmplitudePanner :=
    (never_associate _ _).bind fun id => (never_recomputeMap id).bind fun _ => never_pure _
  refine hhrtf.bind fun _ => hamplitude.bind fun _ => (never_associate _ _).bind fun _ =>
    (never_associate _ _).bind fun _ => (never_change _).bind fun _ => (never_change _).bind fun _ =>
      (never_associate _ _).bind fun _ => (never_change _).bind fun _ => ?_
  exact (never_forM (fun _ => never_change _) _).bind fun _ => never_pure _

/-- **No deed is aborted for nesting.** -/
theorem Deed.never_nesting {α : Type} (d : Deed α) : Never (.aborted .nesting) d.run := by
  cases d with
  | associate kind layout => exact never_associate kind layout
  | assemble data => exact Multipanner.never_assemble data
  | arrange id layout => exact never_update fun g => g.applyLayout_avoids id layout
  | recomputeMap id => exact never_recomputeMap id
  | pull id => exact never_update fun g => g.pull_avoids id
  | addRing capacity => exact never_addRing capacity
  | clearFaults | refill => exact never_modify _
  | _ => exact never_change _

namespace Action

theorem never_named {α : Type} (bindings : Session → Bindings α) (label : Label) :
    Never (.aborted .nesting) (named bindings label) := by
  refine never_get.bind fun s => ?_
  split
  · exact never_pure _
  · exact never_throw (by simp)

theorem never_node (label : Label) : Never (.aborted .nesting) (node label) := never_named _ _

theorem never_dataset (label : Label) : Never (.aborted .nesting) (dataset label) := by
  refine (never_named _ _).bind fun number => never_get.bind fun s => ?_
  split
  · exact never_pure _
  · exact never_throw (by simp)

end Action

theorem Blueprint.never_build (b : Blueprint) : Never (.aborted .nesting) b.build := by
  cases b with
  | samplePlayer samples rate => exact never_get.bind fun _ => never_pure _
  | hrtfPanner data =>
    exact (Action.never_dataset data).bind fun d =>
      (never_onGraph (never_hrtfKind d)).bind fun _ => never_pure _
  | ringSink capacity channels =>
    exact (never_onGraph (never_addRing capacity)).bind fun _ => never_pure _
  | _ => exact never_pure _

/-- A script writes into the log, and may refuse a value. -/
theorem Script.never_announce (script : Script) (event : Event) :
    Never (.aborted .nesting) (script.announce event) := by
  refine never_get.bind fun s => ?_
  cases event.value with
  | none => exact never_modify _
  | some value =>
    refine (never_modify _).bind fun _ => ?_
    cases script.vetoAbove with
    | none => exact never_pure ()
    | some bound => exact never_read _

end SpatialAudio
