import SpatialAudio.Proofs.Supervision

/-!
# Proofs/Stability — an invariant of graphs, step by step through a session

`Stable` lists what an invariant has to be kept by: the operations of a graph, each on the nodes that
a policy allows it for.  Then it is kept by everything a session does under that policy
(`Stable.outcome_step`), because observers can do no more than what sessions can.

An aborted run ends the session.  What holds of a graph then may be less (`J`) than what holds of it
otherwise (`I`).
-/

namespace SpatialAudio

section Outcome

variable {α β : Type} {I J : Graph → Prop} {s : Session}

/-- The invariant holds, or the run was aborted. -/
def Outcome (I J : Graph → Prop) : Except Failure α × Session → Prop
  | (.error (.aborted _), s) => J s.graph
  | (_, s) => I s.graph

/-- Wherever the action starts with the invariant it ends so. -/
def Keeps (I J : Graph → Prop) (a : Action α) : Prop :=
  ∀ s, I s.graph → Outcome I J (a.run s)

theorem outcome_of_inv (hIJ : ∀ g, I g → J g) {r : Except Failure α × Session} (h : I r.2.graph) :
    Outcome I J r := by
  obtain ⟨(_ | _) | _, s⟩ := r
  · exact h
  · exact hIJ _ h
  · exact h

theorem outcome_bind {a : Action α} {f : α → Action β} (ha : Outcome I J (a.run s))
    (hf : ∀ x s', a.run s = (.ok x, s') → I s'.graph → Outcome I J ((f x).run s')) :
    Outcome I J ((a >>= f).run s) := by
  rw [run_bind]
  rcases hr : a.run s with ⟨(e | c) | x, s'⟩
  · rw [hr] at ha
    exact ha
  · rw [hr] at ha
    exact ha
  · rw [hr] at ha
    exact hf x s' hr ha

theorem Keeps.bind {a : Action α} {f : α → Action β} (ha : Keeps I J a)
    (hf : ∀ x, Keeps I J (f x)) : Keeps I J (a >>= f) :=
  fun s hs => outcome_bind (ha s hs) fun x s' _ hs' => hf x s' hs'

theorem keeps_pure (a : α) : Keeps I J (pure a : Action α) := fun _ hs => hs

theorem keeps_refuse (e : Error) : Keeps I J (Action.refuse e : Action α) := fun _ hs => hs

theorem keeps_abort (hIJ : ∀ g, I g → J g) (c : Abort) :
    Keeps I J (throw (.aborted c) : Action α) := fun s hs => hIJ s.graph hs

theorem keeps_onGraph (hIJ : ∀ g, I g → J g) {m : GraphM α} (hm : ∀ g, I g → I (m.run g).2) :
    Keeps I J (Action.onGraph m) := fun s hs => outcome_of_inv hIJ (hm s.graph hs)

theorem inv_bind {m : GraphM α} {f : α → GraphM β} {g : Graph} (hm : I (m.run g).2)
    (hf : ∀ x g', m.run g = (.ok x, g') → I g' → I ((f x).run g').2) :
    I ((m >>= f).run g).2 := by
  rw [run_bind]
  rcases hr : m.run g with ⟨e | x, g'⟩
  · rw [hr] at hm
    exact hm
  · rw [hr] at hm
    exact hf x g' hr hm

theorem inv_update {g : Graph} (hg : I g) {f : Graph → Except Failure Graph}
    (hf : ∀ g', f g = .ok g' → I g') : I ((GraphM.update f).run g).2 := by
  rw [run_update]
  split
  · next g' hg' => exact hf g' hg'
  · exact hg

theorem inv_change {g : Graph} (hg : I g) {f : Graph → Except Error Graph}
    (hf : ∀ g', f g = .ok g' → I g') : I ((GraphM.change f).run g).2 := by
  rw [run_change]
  split
  · next g' hg' => exact hf g' hg'
  · exact hg

theorem keeps_update (hIJ : ∀ g, I g → J g) {f : Graph → Except Failure Graph}
    (hf : ∀ g g', I g → f g = .ok g' → I g') : Keeps I J (.onGraph (GraphM.update f)) :=
  keeps_onGraph hIJ fun g hg => inv_update hg fun g' => hf g g' hg

theorem keeps_change (hIJ : ∀ g, I g → J g) {f : Graph → Except Error Graph}
    (hf : ∀ g g', I g → f g = .ok g' → I g') : Keeps I J (.change f) :=
  keeps_onGraph hIJ fun g hg => inv_change hg fun g' => hf g g' hg

/-- Reading leaves the session alone. -/
theorem outcome_read (hs : I s.graph) {f : Graph → Except Error α} {k : α → Action β}
    (hk : ∀ x, f s.graph = .ok x → Outcome I J ((k x).run s)) :
    Outcome I J ((Action.read f >>= k).run s) := by
  cases hf : f s.graph with
  | error e =>
    rw [run_bind_error (run_read_error hf)]
    exact hs
  | ok x =>
    rw [run_bind_ok (run_read_ok hf)]
    exact hk x hf

theorem keeps_read {f : Graph → Except Error α} : Keeps I J (.read f) := by
  intro s hs
  rw [Action.read, run_onGraph, run_read]
  cases f s.graph <;> exact hs

/-- What is no part of the graph may change freely. -/
theorem keeps_modify {f : Session → Session} (hf : ∀ s, (f s).graph = s.graph) :
    Keeps I J (modify f : Action PUnit) := by
  intro s hs
  change I (f s).graph
  rw [hf]
  exact hs

theorem keeps_write (entry : LogEntry) : Keeps I J (Action.write entry) := keeps_modify fun _ => rfl

/-- A label is looked up before anything else happens. -/
theorem outcome_named (hIJ : ∀ g, I g → J g) (hs : I s.graph) {bindings : Session → Bindings α}
    {label : Label} {k : α → Action β}
    (hk : ∀ x, (bindings s).get? label = some x → Outcome I J ((k x).run s)) :
    Outcome I J ((Action.named bindings label >>= k).run s) := by
  cases hl : (bindings s).get? label with
  | none =>
    have hrun : (Action.named bindings label).run s = (.error (.aborted (.unbound label)), s) := by
      rw [Action.named, run_bind_ok (run_get s), hl]
      rfl
    rw [run_bind_error hrun]
    exact hIJ _ hs
  | some x =>
    have hrun : (Action.named bindings label).run s = (.ok x, s) := by
      rw [Action.named, run_bind_ok (run_get s), hl]
      rfl
    rw [run_bind_ok hrun]
    exact hk x hl

/-- How an attempt may end. -/
theorem outcome_attempt {a : Action α} {k : Except Failure α → Action β}
    (ha : Outcome I J (a.run s))
    (hok : ∀ x s', I s'.graph → Outcome I J ((k (.ok x)).run s'))
    (hrefused : ∀ e s', I s'.graph → Outcome I J ((k (.error (.refused e))).run s'))
    (haborted : ∀ c s', J s'.graph → Outcome I J ((k (.error (.aborted c))).run s')) :
    Outcome I J ((a.attempt >>= k).run s) := by
  rw [run_bind_ok (run_attempt a s)]
  generalize a.run s = r at ha ⊢
  obtain ⟨(e | c) | x, s'⟩ := r
  · exact hrefused e s' ha
  · exact haborted c s' ha
  · exact hok x s' ha

end Outcome

/-! ## Stable invariants -/

open SpatialAudio.Graph

/-- What an invariant is kept by.  Nodes that are `free` may be used in every way, by observers
too. -/
structure Stable (P : Policy) (free : NodeId → Prop) (I J : Graph → Prop) : Prop where
  halts : ∀ g, I g → J g
  halted : ∀ g id p f, J g → J (g.modifyProperty id p f)
  spared : ∀ id use, free id → P id use = true
  observed : ∀ id, P id .observe = true → free id
  remapped : ∀ id, P id .remap = true → P id .assign = true
  books : ∀ g rings faults, I g → I { g with rings := rings, faults := faults }
  associate : ∀ g k l, k.type ≠ .multipanner → I g → I ((associate k l).run g).2
  fresh : ∀ g g' k l id, I g → (Graph.associate k l).run g = (.ok id, g') → free id
  assemble : ∀ g data, I g → I ((Multipanner.assemble data).run g).2
  assembled : ∀ g g' data id, I g → (Multipanner.assemble data).run g = (.ok id, g') → free id
  property : ∀ g id p f, free id → I g → I (g.modifyProperty id p f)
  remove : ∀ g g' id, P id .remove = true → I g → g.remove id = .ok g' → I g'
  connect : ∀ g g' a o b k, I g → g.connect a o b k = .ok g' → I g'
  disconnect : ∀ g g' a o, I g → g.disconnect a o = .ok g' → I g'
  connectInterior : ∀ g g' a o b k, free a → free b → I g → g.connectInterior a o b k = .ok g' → I g'
  disconnectInterior : ∀ g g' a o, free a → I g → g.disconnectInterior a o = .ok g' → I g'
  applyLayout : ∀ g g' id l, P id .arrange = true → I g → g.applyLayout id l = .ok g' → I g'
  recomputeMap : ∀ g id, P id .remap = true → I g → I ((recomputeMap id).run g).2
  markRecompute : ∀ g g' id, I g → g.markRecompute id = .ok g' → I g'
  strategy : ∀ g id m strategy, free id → I g → Multipanner.find g id = .ok m →
    I (g.modifyAt id.index fun n => { n with kind := .multipanner { m with strategy } })
  family : ∀ g id m, free id → I g → Multipanner.find g id = .ok m →
    free m.hrtf ∧ free m.amplitude ∧ free m.output
  pull : ∀ g g' id, I g → g.pull id = .ok g' → I g'

/-- Properties of nodes that may be set are set with the invariant kept. -/
def Sets (P : Policy) (I J : Graph → Prop) (set : Setter) : Prop :=
  ∀ id p v, P id .assign = true → Keeps I J (set id p v)

namespace Stable

variable {P : Policy} {free : NodeId → Prop} {I J : Graph → Prop}

/-! ### Panners -/

theorem keeps_configureStandardMap {set : Setter} (hset : Sets P I J set)
    {id : NodeId} (hid : P id .assign = true) (channels : Nat) :
    Keeps I J (configureStandardMap set id channels) := by
  rw [configureStandardMap]
  split
  · exact keeps_refuse _
  · exact keeps_read.bind fun _ => (hset _ _ _ hid).bind fun _ => (hset _ _ _ hid).bind fun _ =>
      hset _ _ _ hid

theorem keeps_recomputeMap (h : Stable P free I J) {id : NodeId} (hid : P id .remap = true) :
    Keeps I J (.onGraph (Graph.recomputeMap id)) :=
  keeps_onGraph h.halts fun g hg => h.recomputeMap g id hid hg

theorem keeps_transition (h : Stable P free I J) {set : Setter} (hset : Sets P I J set)
    {id : NodeId} (hid : free id) (strategy : Strategy) :
    Keeps I J (Multipanner.transition set id strategy) := by
  intro s hs
  rw [Multipanner.transition]
  refine outcome_read hs fun m hm => ?_
  obtain ⟨hhrtf, hamplitude, houtput⟩ := h.family s.graph id m hid hs hm
  -- attaching the active panner, whichever it is
  have hattach : ∀ active, free active → Keeps I J (do
      let width ← .read fun g => g.outputCount active
      .onGraph (GraphM.update fun g => g.applyLayout m.output (.symmetric width))
      .change fun g => g.connectInterior active 0 m.output 0
      .change fun g => do
        let m ← Multipanner.find g id
        return g.modifyAt id.index fun n => { n with kind := .multipanner { m with strategy } }) := by
    intro active hactive
    refine keeps_read.bind fun width => ?_
    refine (keeps_update h.halts fun g g' hg =>
      h.applyLayout g g' _ _ (h.spared _ _ houtput) hg).bind fun _ => ?_
    refine (keeps_change h.halts fun g g' hg =>
      h.connectInterior g g' _ _ _ _ hactive houtput hg).bind fun _ => ?_
    refine keeps_change h.halts fun g g' hg hg' => ?_
    obtain ⟨m', hm', hg'⟩ := bind_eq_ok.mp hg'
    rw [← pure_eq_ok.mp hg']
    exact h.strategy g id m' strategy hid hg hm'
  refine ((keeps_change h.halts fun g g' hg =>
    h.disconnectInterior g g' _ _ hhrtf hg).bind fun _ => ?_) s hs
  refine (keeps_change h.halts fun g g' hg =>
    h.disconnectInterior g g' _ _ hamplitude hg).bind fun _ => ?_
  cases strategy with
  | hrtf => exact hattach m.hrtf hhrtf
  | _ =>
    refine Keeps.bind (keeps_configureStandardMap hset (h.spared _ _ hamplitude) _) fun _ => ?_
    refine Keeps.bind (h.keeps_recomputeMap (h.spared _ _ hamplitude)) fun _ => ?_
    exact hattach m.amplitude hamplitude

theorem keeps_create (h : Stable P free I J) {set : Setter} (hset : Sets P I J set)
    (data : Dataset) : Keeps I J (Multipanner.create set data) := by
  intro s hs
  refine outcome_bind (keeps_onGraph h.halts (fun g => h.assemble g data) s hs) fun id s' hrun hs' => ?_
  have hid : free id := by
    rw [run_onGraph] at hrun
    obtain ⟨hid, -⟩ := Prod.ext_iff.mp hrun
    exact h.assembled s.graph _ data id hs (Prod.ext hid rfl)
  exact ((h.keeps_transition hset hid .stereo).bind fun _ => keeps_pure id) s' hs'

/-! ### Commands -/

theorem keeps_bindNode (label : Label) (id : NodeId) : Keeps I J (Action.bindNode label id) :=
  keeps_modify fun _ => rfl

theorem keeps_associateAs (h : Stable P free I J) (label : Label) {k : NodeKind}
    (hk : k.type ≠ .multipanner) (ring : Option Nat) (l : Layout) :
    Keeps I J (associateAs label k ring l) := by
  refine (keeps_onGraph h.halts fun g => h.associate g k l hk).bind fun id => ?_
  refine (keeps_bindNode label id).bind fun _ => ?_
  cases ring with
  | some ring => exact Keeps.bind (keeps_modify fun _ => rfl) fun _ => keeps_pure id
  | none => exact keeps_pure id

theorem keeps_dataset (h : Stable P free I J) (label : Label) :
    Keeps I J (Action.dataset label) := by
  intro s hs
  refine outcome_named h.halts hs fun number _ => ?_
  rw [run_bind_ok (run_get s)]
  split
  · exact hs
  · exact h.halts _ hs

theorem keeps_addRing (h : Stable P free I J) (capacity : Nat) :
    Keeps I J (.onGraph (addRing capacity)) := by
  refine keeps_onGraph h.halts fun g hg => ?_
  rw [addRing]
  split
  · exact hg
  · exact h.books g _ g.faults hg

theorem inv_hrtfKind (data : Dataset) {g : Graph} (hg : I g) : I ((hrtfKind data).run g).2 := by
  rw [hrtfKind]
  split <;> exact hg

theorem keeps_build (h : Stable P free I J) (b : Blueprint) : Keeps I J b.build := by
  cases b with
  | samplePlayer samples rate => exact fun s hs => hs
  | hrtfPanner data =>
    exact (h.keeps_dataset data).bind fun d =>
      (keeps_onGraph h.halts fun _ => inv_hrtfKind d).bind fun k => keeps_pure _
  | ringSink capacity channels => exact (h.keeps_addRing capacity).bind fun ring => keeps_pure _
  | _ => exact keeps_pure _

theorem type_hrtfKind {data : Dataset} {g g' : Graph} {k : NodeKind}
    (h : (hrtfKind data).run g = (.ok k, g')) : k.type = .hrtfPanner := by
  rw [hrtfKind] at h
  split at h
  · cases h
    rfl
  · cases h

/-- Multipanners are not built from blueprints. -/
theorem type_build {b : Blueprint} {s s' : Session} {k : NodeKind} {ring : Option Nat}
    (h : b.build.run s = (.ok (k, ring), s')) : k.type ≠ .multipanner := by
  cases b with
  | hrtfPanner data =>
    rw [Blueprint.build, run_bind] at h
    split at h
    · next d s₁ _ =>
      rw [run_bind, run_onGraph] at h
      rcases hkind : (hrtfKind d).run s₁.graph with ⟨e | k', g'⟩
      · rw [hkind] at h
        cases h
      · rw [hkind] at h
        cases h
        rw [type_hrtfKind hkind]
        decide
    · cases h
  | ringSink capacity channels =>
    rw [Blueprint.build, run_bind] at h
    split at h
    · cases h
      exact nofun
    · cases h
  | _ =>
    cases h
    exact nofun

theorem keeps_bindInterior (label : Label) (m : Multipanner) : Keeps I J (bindInterior label m) :=
  (keeps_bindNode _ _).bind fun _ => (keeps_bindNode _ _).bind fun _ =>
    (keeps_bindNode _ _).bind fun _ => keeps_bindNode _ _

theorem keeps_edit (h : Stable P free I J) {id : NodeId} (hid : P id .arrange = true)
    (e : LayoutEdit) : Keeps I J (.onGraph (Graph.edit id e)) := by
  refine keeps_onGraph h.halts fun g hg => ?_
  refine inv_bind (by rw [run_read]; exact hg) fun r g₁ hread hg₁ => ?_
  exact inv_bind (inv_update hg₁ fun g' => h.applyLayout g₁ g' id _ hid hg₁) fun _ _ _ hg₂ => hg₂

theorem keeps_pull (h : Stable P free I J) (id : NodeId) :
    Keeps I J (.onGraph (GraphM.update fun g => g.pull id)) :=
  keeps_update h.halts fun g g' hg => h.pull g g' id hg

/-- **A command that is allowed keeps the invariant.** -/
theorem outcome_perform (h : Stable P free I J) {set : Setter} (hset : Sets P I J set) {c : Command}
    {s : Session} (hc : c.permitted P s = true) (hs : I s.graph) :
    Outcome I J ((perform set c).run s) := by
  have hdone : ∀ {a : Action Unit}, Keeps I J a → Keeps I J (do a; return Answer.done) :=
    fun ha => ha.bind fun _ => keeps_pure _
  -- the node of the label that the policy looked at
  have hallowed : ∀ {label use id}, c.use? = some (label, use) → s.nodes.get? label = some id →
      P id use = true := by
    intro label use id huse hid
    rw [Command.permitted, huse] at hc
    simp only [hid] at hc
    exact hc
  cases c with
  | associate label blueprint layout =>
    refine outcome_bind (h.keeps_build blueprint s hs) fun built s' hrun hs' => ?_
    obtain ⟨kind, ring⟩ := built
    exact ((h.keeps_associateAs label (type_build hrun) ring layout).bind fun _ => keeps_pure _) s' hs'
  | connect source outputSlot target inputSlot =>
    refine outcome_named h.halts hs fun a _ => outcome_named h.halts hs fun b _ => ?_
    exact hdone (keeps_change h.halts fun g g' hg => h.connect g g' _ _ _ _ hg) s hs
  | disconnect label slot =>
    refine outcome_named h.halts hs fun id _ => ?_
    exact hdone (keeps_change h.halts fun g g' hg => h.disconnect g g' _ _ hg) s hs
  | remove label =>
    refine outcome_named h.halts hs fun id hid => ?_
    exact hdone (keeps_change h.halts fun g g' hg => h.remove g g' _ (hallowed rfl hid) hg) s hs
  | set label p v =>
    refine outcome_named h.halts hs fun id hid => ?_
    exact hdone (hset id p v (hallowed rfl hid)) s hs
  | reset label p =>
    refine outcome_named h.halts hs fun id hid => ?_
    refine outcome_read hs fun x _ => ?_
    exact hdone (hset id p x.default (hallowed rfl hid)) s hs
  | inspect label p query => exact outcome_named h.halts hs fun id _ => keeps_read s hs
  | ask label query => exact outcome_named h.halts hs fun id _ => keeps_read s hs
  | edit label change =>
    refine outcome_named h.halts hs fun id hid => ?_
    refine ((h.keeps_edit (hallowed rfl hid) change).bind fun slot => ?_) s hs
    cases slot <;> exact keeps_pure _
  | process label => exact outcome_named h.halts hs fun id _ => hdone (h.keeps_pull id) s hs
  | standardMap label channels =>
    refine outcome_named h.halts hs fun id hid => ?_
    exact hdone (keeps_configureStandardMap hset (h.remapped id (hallowed rfl hid)) channels) s hs
  | recomputeMap label =>
    refine outcome_named h.halts hs fun id hid => ?_
    exact hdone (h.keeps_recomputeMap (hallowed rfl hid)) s hs
  | markRecompute label =>
    refine outcome_named h.halts hs fun id _ => ?_
    exact hdone (keeps_change h.halts fun g g' hg => h.markRecompute g g' _ hg) s hs
  | multipanner label binding =>
    refine outcome_named h.halts hs fun id _ => outcome_read hs fun m _ => ?_
    cases binding with
    | some stem => exact ((keeps_bindInterior stem m).bind fun _ => keeps_pure _) s hs
    | none => exact hs
  | summary => exact hs
  | checkConsistency => exact outcome_read hs fun _ _ => hs
  | observe phase label p tag vetoAbove propagate steps =>
    refine outcome_named h.halts hs fun id hid => ?_
    refine hdone (keeps_change h.halts fun g g' hg hg' => ?_) s hs
    rw [(addObserver_eq_ok.mp hg').2]
    exact h.property g id p _ (h.observed id (hallowed rfl hid)) hg

theorem keeps_performUnder (h : Stable P free I J) {set : Setter} (hset : Sets P I J set)
    (c : Command) : Keeps I J (performUnder P set c) := by
  intro s hs
  rw [performUnder, run_bind_ok (run_get s)]
  split
  · next hc => exact h.outcome_perform hset hc hs
  · exact h.halts _ hs

/-! ### Observers -/

theorem keeps_runStepsUnder (h : Stable P free I J) {set : Setter} (hset : Sets P I J set)
    (propagate : Bool) (steps : List Command) :
    Keeps I J (runStepsUnder P set propagate steps) := by
  induction steps with
  | nil => exact keeps_pure ()
  | cons step rest ih =>
    intro s hs
    refine outcome_attempt (h.keeps_performUnder hset step s hs) (fun a s' hs' => ?_)
      (fun e s' hs' => ?_) fun c s' hs' => hs'
    · exact (keeps_write _).bind (fun _ => ih) s' hs'
    · refine (keeps_write _).bind (fun _ => ?_) s' hs'
      split
      · exact keeps_refuse e
      · exact ih

theorem keeps_runUnder (h : Stable P free I J) {set : Setter} (hset : Sets P I J set) (s : Script)
    (event : Event) : Keeps I J (s.runUnder P set event) := by
  have hsteps := h.keeps_runStepsUnder hset s.propagate s.steps
  intro t ht
  rw [Script.runUnder, run_bind_ok (run_get t)]
  cases event.value with
  | none => exact (keeps_write _).bind (fun _ => hsteps) t ht
  | some value =>
    refine (keeps_write _).bind (fun _ => ?_) t ht
    cases s.vetoAbove with
    | none => exact hsteps
    | some bound => exact keeps_read.bind fun _ => hsteps

theorem keeps_reactUnder (h : Stable P free I J) {set : Setter} (hset : Sets P I J set)
    {event : Event} (hfree : free event.node) (o : Observer) :
    Keeps I J (reactUnder P set event o) := by
  cases o with
  | markRecompute => exact keeps_change h.halts fun g g' hg => h.markRecompute g g' _ hg
  | forwardToPanners =>
    intro s hs
    refine outcome_read hs fun v _ => outcome_read hs fun m hm => ?_
    obtain ⟨hhrtf, hamplitude, -⟩ := h.family s.graph event.node m hfree hs hm
    exact (hset _ _ _ (h.spared _ _ hhrtf)).bind
      (fun _ => hset _ _ _ (h.spared _ _ hamplitude)) s hs
  | forwardToOutput =>
    intro s hs
    refine outcome_read hs fun v _ => outcome_read hs fun m hm => ?_
    obtain ⟨-, -, houtput⟩ := h.family s.graph event.node m hfree hs hm
    exact hset _ _ _ (h.spared _ _ houtput) s hs
  | admitStrategy =>
    change Keeps I J (react set event .admitStrategy)
    rw [react]
    split
    · exact keeps_read
    · exact keeps_pure ()
  | applyStrategy => exact keeps_read.bind fun strategy => h.keeps_transition hset hfree strategy
  | script s => exact h.keeps_runUnder hset s event

theorem keeps_forM {α : Type} {f : α → Action Unit} (hf : ∀ a, Keeps I J (f a)) (as : List α) :
    Keeps I J (as.forM f) := by
  induction as with
  | nil => exact keeps_pure ()
  | cons a as ih => exact (hf a).bind fun _ => ih

theorem keeps_notify (h : Stable P free I J) {run : Event → Observer → Action Unit} {event : Event}
    (hfree : free event.node) (hrun : ∀ o, Keeps I J (run event o)) (phase : Phase) :
    Keeps I J (notify run phase event) := by
  intro s hs
  rw [notify, run_bind_ok (run_get s)]
  have htaken : I (s.graph.takeObservers phase event.node event.property).2 :=
    h.property _ _ _ _ hfree hs
  have hrest : ∀ (taken : List Observer) (r : Except Failure Unit) (s' : Session),
      Outcome I J (r, s') → Outcome I J ((do
        modify fun s : Session =>
          { s with graph := s.graph.restoreObservers phase event.node event.property taken }
        Action.settle r).run s') := by
    intro taken r s' hr
    rw [run_bind_ok (run_modify _ s'), run_settle]
    obtain (e | c) | x := r
    · exact h.property _ _ _ _ hfree hr
    · exact h.halted _ _ _ _ hr
    · exact h.property _ _ _ _ hfree hr
  rw [run_bind_ok (run_modify _ s)]
  exact outcome_attempt (keeps_forM hrun _ _ htaken) (fun x s' hs' => hrest _ _ s' hs')
    (fun e s' hs' => hrest _ _ s' hs') fun c s' hs' => hrest _ _ s' hs'

theorem keeps_setWith (h : Stable P free I J) {run : Event → Observer → Action Unit} {id : NodeId}
    (hfree : free id) (hrun : ∀ event o, event.node = id → Keeps I J (run event o))
    (p : PropertyId) (v : PropertyValue) : Keeps I J (setWith run id p v) := by
  refine keeps_read.bind fun _ => ?_
  refine (h.keeps_notify hfree (fun o => hrun _ o rfl) .before).bind fun _ => ?_
  refine Keeps.bind (keeps_change h.halts fun g g' hg hg' => ?_) fun _ =>
    h.keeps_notify hfree (fun o => hrun _ o rfl) .after
  obtain ⟨x, -, hg'⟩ := bind_eq_ok.mp hg'
  rw [← pure_eq_ok.mp hg']
  exact h.property g id p _ hfree hg

/-- **Setting a property keeps the invariant**, provided it does on the nodes that are not free but
may be set. -/
theorem sets_changeUnder (h : Stable P free I J)
    (hspecial : ∀ depth id p v, P id .assign = true → ¬ free id →
      Keeps I J (changeUnder P depth id p v)) (depth : Nat) : Sets P I J (changeUnder P depth) := by
  induction depth with
  | zero => exact fun _ _ _ _ => keeps_abort h.halts .nesting
  | succ depth ih =>
    intro id p v hid
    by_cases hfree : free id
    · refine h.keeps_setWith hfree (fun event o hevent => ?_) p v
      exact h.keeps_reactUnder ih (hevent ▸ hfree) o
    · exact hspecial (depth + 1) id p v hid hfree

/-! ### Steps -/

/-- The nodes that are not free are set with the invariant kept all the same. -/
abbrev Special (P : Policy) (free : NodeId → Prop) (I J : Graph → Prop) : Prop :=
  ∀ depth id p v, P id .assign = true → ¬ free id → Keeps I J (changeUnder P depth id p v)

theorem sets_setUnder (h : Stable P free I J) (hspecial : Special P free I J) :
    Sets P I J (Session.setUnder P) := by
  intro id p v hid s hs
  rw [Session.setUnder, run_bind_ok (run_get s)]
  exact h.sets_changeUnder hspecial _ id p v hid s hs

theorem keeps_createAmplitudePanner (h : Stable P free I J) :
    Keeps I J (.onGraph createAmplitudePanner) := by
  refine keeps_onGraph h.halts fun g hg => ?_
  refine inv_bind (h.associate g _ _ nofun hg) fun id g₁ hrun hg₁ => ?_
  exact inv_bind (h.recomputeMap g₁ id (h.spared _ _ (h.fresh g g₁ _ _ id hg hrun)) hg₁)
    fun _ _ _ hg₂ => hg₂

theorem keeps_createHrtfPanner (h : Stable P free I J) (data : Dataset) :
    Keeps I J (.onGraph (createHrtfPanner data)) := by
  refine keeps_onGraph h.halts fun g hg => ?_
  refine inv_bind (inv_hrtfKind data hg) fun k g₁ hkind hg₁ => ?_
  have hk : k.type ≠ .multipanner := by
    rw [type_hrtfKind hkind]
    decide
  refine inv_bind (h.associate g₁ k _ hk hg₁) fun id g₂ hrun hg₂ => ?_
  have hfree := h.fresh g₁ g₂ _ _ id hg₁ hrun
  have hobserve : ∀ p g, I g →
      I ((GraphM.change fun g => g.addObserver .after id p .markRecompute).run g).2 := by
    intro p g hg
    refine inv_change hg fun g' hadd => ?_
    rw [(addObserver_eq_ok.mp hadd).2]
    exact h.property g id p _ hfree hg
  refine inv_bind (hobserve _ _ hg₂) fun _ g₃ _ hg₃ => ?_
  exact inv_bind (hobserve _ _ hg₃) fun _ _ _ hg₄ => hg₄

theorem keeps_creation (h : Stable P free I J) (hspecial : Special P free I J) (label : Label)
    (creation : Creation) : Keeps I J (creation.runUnder P label) := by
  have hbind : ∀ id, Keeps I J (do Action.bindNode label id; return id) :=
    fun id => (keeps_bindNode label id).bind fun _ => keeps_pure id
  cases creation with
  | sine => exact h.keeps_associateAs label (k := .sine ⟨0⟩) nofun none _
  | samplePlayer samples =>
    intro s hs
    exact h.keeps_associateAs label (k := .samplePlayer (.new samples s.graph.sampleRate)) nofun none
      .source s hs
  | gain channels => exact h.keeps_associateAs label (k := .gain) nofun none _
  | amplitudePanner => exact h.keeps_createAmplitudePanner.bind hbind
  | hrtfPanner data =>
    exact (h.keeps_dataset data).bind fun d => (h.keeps_createHrtfPanner d).bind hbind
  | multipanner data =>
    exact (h.keeps_dataset data).bind fun d =>
      (h.keeps_create (h.sets_setUnder hspecial) d).bind hbind
  | ringSink channels blocks =>
    refine (h.keeps_addRing _).bind fun ring => ?_
    exact h.keeps_associateAs label (k := .ringSink (.new ring (max channels 1))) nofun _ _

theorem keeps_transactUnder (h : Stable P free I J) (hspecial : Special P free I J)
    (commands : List Command) (done : List Answer) :
    Keeps I J (transactUnder P commands done) := by
  induction commands generalizing done with
  | nil => exact keeps_pure _
  | cons c rest ih =>
    intro s hs
    exact outcome_attempt (h.keeps_performUnder (h.sets_setUnder hspecial) c s hs)
      (fun a s' hs' => ih _ s' hs') (fun e s' hs' => hs') fun c s' hs' => hs'

theorem keeps_pullTimes (h : Stable P free I J) (id : NodeId) (times : Nat) :
    Keeps I J (pullTimes id times) := by
  induction times with
  | zero => exact keeps_pure ()
  | succ times ih => exact (h.keeps_pull id).bind fun _ => ih

theorem keeps_settle (hIJ : ∀ g, I g → J g) {α : Type} (r : Except Failure α) :
    Keeps I J (Action.settle r) := by
  intro s hs
  rw [run_settle]
  exact outcome_of_inv hIJ hs

/-- **Every step under supervision keeps the invariant.** -/
theorem outcome_step (h : Stable P free I J) (hspecial : Special P free I J) (step : Step) :
    Keeps I J (step.runUnder P) := by
  cases step with
  | command c =>
    exact (h.keeps_performUnder (h.sets_setUnder hspecial) c).bind fun _ => keeps_pure _
  | create label creation => exact (h.keeps_creation hspecial label creation).bind fun _ => keeps_pure _
  | foreign label i => exact (keeps_bindNode label _).bind fun _ => keeps_pure _
  | writeFile path content =>
    refine (keeps_settle h.halts _).bind fun bytes => ?_
    exact Keeps.bind (keeps_modify fun _ => rfl) fun _ => keeps_pure _
  | load label source =>
    intro s hs
    change Outcome I J ((Step.load label source).run.run s)
    rw [Step.run, run_bind_ok (run_get s)]
    refine outcome_bind (keeps_settle h.halts _ s hs) fun loaded s' _ _ => ?_
    obtain ⟨number, library⟩ := loaded
    exact ((h.keeps_dataset label).bind fun _ => keeps_pure _) _ hs
  | render label out probe =>
    intro s hs
    refine outcome_bind (keeps_settle h.halts _ s hs) fun _ s' _ hs' => ?_
    refine outcome_named h.halts hs' fun id _ => ?_
    exact ((h.keeps_pullTimes id 1).bind fun _ => keeps_read.bind fun _ => keeps_pure _) s' hs'
  | process label times =>
    intro s hs
    refine outcome_named h.halts hs fun id _ => ?_
    exact ((h.keeps_pullTimes id times).bind fun _ => keeps_pure _) s hs
  | takeFaults => exact fun s hs => h.books s.graph s.graph.rings [] hs
  | drain label limit probe =>
    intro s hs
    refine outcome_named h.halts hs fun number _ => ?_
    exact h.books s.graph _ s.graph.faults hs
  | transaction commands => exact h.keeps_transactUnder hspecial commands []
  | readLog => exact fun s hs => hs
  | rate => exact fun s hs => hs

end Stable

end SpatialAudio
