import SpatialAudio.Proofs.Recording
import SpatialAudio.Proofs.Steadiness

/-!
# Proofs/Registration — setting properties only ever adds observers at the end

While the observers of a property run their list is taken out, and it is put back when they are
through, whatever they did meanwhile.  `Extended` says what a stretch of a session makes of all
lists of observers: each has the observers registered in that stretch behind those it had.  This
holds of every command and of every observer, and of a change as a whole, although not while it is
under way (`Extended.restoreObservers`).

A node does not come back once it is removed, so a handle that is good before and after has been
good all the time (`Extended.survives`), unless the 2³² generations of its slot came round.
-/

namespace SpatialAudio

/-! ## Lists of observers -/

namespace Properties

variable {ps qs : Properties} {phase phase' : Phase} {p q : PropertyId}

/-- The observers of a property in a phase, if there is such a property. -/
def observers? (ps : Properties) (phase : Phase) (p : PropertyId) : Option (List Observer) :=
  (ps.get? p).map (·.observers phase)

theorem observers?_of_frame (h : ps.frame = qs.frame) (phase : Phase) (p : PropertyId) :
    ps.observers? phase p = qs.observers? phase p := by
  have hframe : (ps.get? p).map Property.frame = (qs.get? p).map Property.frame := by
    rw [map_frame_get?, map_frame_get?, h]
  rw [observers?, observers?]
  cases hx : ps.get? p with
  | none =>
    rw [hx] at hframe
    rw [Option.map_eq_none_iff.mp hframe.symm]
  | some x =>
    rw [hx] at hframe
    obtain ⟨y, hy, hyx⟩ := Option.map_eq_some_iff.mp hframe.symm
    rw [hy]
    exact congrArg some (Property.observers_of_frame hyx phase).symm

/-- Changing the observers of one phase leaves those of the other alone. -/
theorem observers?_modify (ps : Properties) (phase phase' : Phase) (p q : PropertyId)
    (f : List Observer → List Observer) :
    (ps.modify p fun x => x.setObservers phase (f (x.observers phase))).observers? phase' q
      = if p = q ∧ phase = phase' then (ps.observers? phase' q).map f
        else ps.observers? phase' q := by
  rw [observers?, observers?, get?_modify]
  by_cases hp : p = q
  · cases phase <;> cases phase' <;> cases ps.get? q <;> simp [hp] <;> rfl
  · simp [hp]

end Properties

/-! ## Records -/

/-- Whether a node is alive. -/
def Moment.holds (x : NodeId) : Moment → Bool
  | passed g => g.contains x
  | registered .. => true

/-- The observer that is registered for a phase of a property. -/
def Moment.registers? (phase : Phase) (x : NodeId) (p : PropertyId) : Moment → Option Observer
  | passed _ => none
  | registered phase' x' p' o => if phase' = phase ∧ x' = x ∧ p' = p then some o else none

/-- A node is alive in the course of a record. -/
def Survives (x : NodeId) (r : List Moment) : Prop := ∀ m ∈ r, m.holds x = true

instance (x : NodeId) (r : List Moment) : Decidable (Survives x r) :=
  inferInstanceAs (Decidable (∀ m ∈ r, m.holds x = true))

/-- The observers that were registered for a phase of a property, in order of registration. -/
def registrations (r : List Moment) (phase : Phase) (x : NodeId) (p : PropertyId) : List Observer :=
  r.filterMap fun m => m.registers? phase x p

theorem registrations_append (r r' : List Moment) (phase : Phase) (x : NodeId) (p : PropertyId) :
    registrations (r ++ r') phase x p = registrations r phase x p ++ registrations r' phase x p :=
  List.filterMap_append ..

theorem registrations_registered (phase phase' : Phase) (x y : NodeId) (p q : PropertyId)
    (o : Observer) : registrations [.registered phase x p o] phase' y q
      = if phase = phase' ∧ x = y ∧ p = q then [o] else [] := by
  rw [registrations, List.filterMap_cons, Moment.registers?]
  split <;> split <;> simp_all

theorem survives_append {x : NodeId} {r r' : List Moment} :
    Survives x (r ++ r') ↔ Survives x r ∧ Survives x r' := List.forall_mem_append

namespace Graph

variable {g g' g'' : Graph} {r r' : List Moment} {x id : NodeId} {n n' : Node} {i : Nat}

/-! ## What a stretch of a session makes of observers -/

/-- **Every list of observers has those of a record behind those it had.** -/
structure Extended (g : Graph) (r : List Moment) (g' : Graph) : Prop where
  sound : g'.Sound
  /-- A node that is alive in the course of the record stays, with its lists extended. -/
  node : ∀ {x : NodeId} {n : Node}, g.node x = .ok n → Survives x r → ∃ n', g'.node x = .ok n' ∧
    ∀ phase p, n'.properties.observers? phase p
      = (n.properties.observers? phase p).map (· ++ registrations r phase x p)
  /-- A slot was vacated at most as often as something happened, and held one node if never. -/
  ages : ∀ i, ∃ k, k ≤ r.length ∧
    (g'.handleAt i).generation = (g.handleAt i).generation + UInt32.ofNat k ∧
    (k = 0 → ∀ n, g.nodeAt? i = some n → Survives (g.handleAt i) r)

theorem Steady.extended (h : Steady g g') : Extended g [] g' where
  sound := h.sound
  node hn _ := by
    obtain ⟨n', hn', hframe⟩ := (h.stays _).node hn
    refine ⟨n', hn', fun phase p => ?_⟩
    rw [Properties.observers?_of_frame hframe]
    simp [registrations]
  ages i := ⟨0, Nat.le_refl 0, by rw [(h.stays i).handle]; simp, fun _ _ _ _ hm =>
    absurd hm List.not_mem_nil⟩

theorem Spares.extended (h : Spares g g') : Extended g [.passed g'] g' where
  sound := h.sound
  node {x n} hn hx := by
    obtain ⟨m, hm⟩ := contains_iff.mp (hx _ List.mem_cons_self)
    rcases h.stays x.index with hstays | hgen
    · obtain ⟨n', hn', hframe⟩ := hstays.node hn
      refine ⟨n', hn', fun phase p => ?_⟩
      rw [Properties.observers?_of_frame hframe]
      simp [registrations, Moment.registers?]
    · rw [handleAt_of_node hn, handleAt_of_node hm] at hgen
      simp at hgen
  ages i := by
    rcases h.stays i with hstays | hgen
    · refine ⟨0, Nat.zero_le _, by rw [hstays.handle]; simp, fun _ n hn m hm => ?_⟩
      rw [List.mem_singleton.mp hm]
      obtain ⟨n', hn', -⟩ := hstays.node (x := g.handleAt i) (node_handleAt.mpr hn)
      exact contains_iff.mpr ⟨n', hn'⟩
    · exact ⟨1, Nat.le_refl 1, hgen, nofun⟩

theorem Extended.trans (h : Extended g r g') (h' : Extended g' r' g'') :
    Extended g (r ++ r') g'' where
  sound := h'.sound
  node hn hx := by
    obtain ⟨hx, hx'⟩ := survives_append.mp hx
    obtain ⟨n', hn', hobs⟩ := h.node hn hx
    obtain ⟨n'', hn'', hobs'⟩ := h'.node hn' hx'
    refine ⟨n'', hn'', fun phase p => ?_⟩
    rw [hobs', hobs, Option.map_map, registrations_append]
    congr 1
    funext os
    exact List.append_assoc ..
  ages i := by
    obtain ⟨k, hk, hgen, hlive⟩ := h.ages i
    obtain ⟨k', hk', hgen', hlive'⟩ := h'.ages i
    refine ⟨k + k', ?_, ?_, fun hzero n hn => ?_⟩
    · rw [List.length_append]
      exact Nat.add_le_add hk hk'
    · rw [hgen', hgen, UInt32.ofNat_add, UInt32.add_assoc]
    · have hx := hlive (by omega) n hn
      obtain ⟨n', hn', -⟩ := h.node (node_handleAt.mpr hn) hx
      obtain ⟨hat, hid⟩ := node_eq_ok.mp hn'
      have hx' := hlive' (by omega) n' hat
      exact survives_append.mpr ⟨hx, hid ▸ hx'⟩

/-- **A node that is alive before and after is alive all the time**, unless its slot was vacated so
often that its generation came round. -/
theorem Extended.survives (h : Extended g r g') (hr : r.length < UInt32.size)
    (hn : g.node x = .ok n) (hn' : g'.node x = .ok n') : Survives x r := by
  obtain ⟨k, hk, hgen, hlive⟩ := h.ages x.index
  rw [handleAt_of_node hn] at hgen hlive
  rw [handleAt_of_node hn'] at hgen
  have hzero : UInt32.ofNat k = 0 := by simpa using hgen
  have hmod : k % UInt32.size = 0 := by simpa using congrArg UInt32.toNat hzero
  refine hlive ?_ n (nodeAt?_of_node hn)
  rw [← Nat.mod_eq_of_lt (Nat.lt_of_le_of_lt hk hr), hmod]

/-! ## Changing the observers of one property -/

section Property

variable {p : PropertyId} {f : Property → Property} {phase : Phase} {taken : List Observer}

theorem node_modifyProperty (hn : g.node x = .ok n) (id : NodeId) (p : PropertyId)
    (f : Property → Property) : (g.modifyProperty id p f).node x
      = .ok (if x = id then { n with properties := n.properties.modify p f } else n) := by
  by_cases hx : x = id
  · subst hx
    rw [modifyProperty_of_node hn, node_modifyAt _ hn, if_pos rfl, if_pos rfl]
  · rw [modifyProperty, if_neg hx]
    split
    · next hid =>
      obtain ⟨m, hm⟩ := contains_iff.mp hid
      rw [node_modifyAt _ hm, if_neg hx, hn]
    · exact hn

theorem handleAt_modifyProperty (g : Graph) (id : NodeId) (p : PropertyId) (f : Property → Property)
    (i : Nat) : (g.modifyProperty id p f).handleAt i = g.handleAt i :=
  (alike_modifyProperty g id p f).handleAt i

theorem Sound.extended_addObserver (h : g.Sound) {o : Observer}
    (hadd : g.addObserver phase id p o = .ok g') :
    Extended g [.registered phase id p o] g' where
  sound := by
    rw [(addObserver_eq_ok.mp hadd).2]
    exact h.move (.property g id p _)
  node {x n} hn _ := by
    rw [(addObserver_eq_ok.mp hadd).2, node_modifyProperty hn]
    refine ⟨_, rfl, fun phase' q => ?_⟩
    rw [registrations_registered]
    by_cases hx : x = id
    · subst hx
      rw [if_pos rfl, Properties.observers?_modify _ _ _ _ _ (· ++ [o])]
      by_cases hq : p = q ∧ phase = phase'
      · rw [if_pos hq, if_pos ⟨hq.2, rfl, hq.1⟩]
      · rw [if_neg hq, if_neg fun h => hq ⟨h.2.2, h.1⟩]
        simp
    · rw [if_neg hx, if_neg fun h => hx h.2.1.symm]
      simp
  ages i := by
    refine ⟨0, Nat.zero_le _, ?_, fun _ n hn m hm => ?_⟩
    · rw [(addObserver_eq_ok.mp hadd).2, handleAt_modifyProperty]
      simp
    · rw [List.mem_singleton.mp hm]
      rfl

/-- **Observers that were taken out come to stand in front of those registered meanwhile**, where
they stood before. -/
theorem Extended.restoreObservers {g₁ : Graph}
    (h : Extended (g.takeObservers phase id p).2 r g₁) :
    Extended g r (g₁.restoreObservers phase id p (g.takeObservers phase id p).1) where
  sound := h.sound.move (.property g₁ id p _)
  node {x n} hn hx := by
    obtain ⟨n₁, hn₁, hobs⟩ := h.node (node_modifyProperty hn id p _) hx
    refine ⟨_, node_modifyProperty hn₁ id p _, fun phase' q => ?_⟩
    by_cases hxid : x = id
    · subst hxid
      rw [if_pos rfl, Properties.observers?_modify _ _ _ _ _ (_ ++ ·), hobs, if_pos rfl,
        Properties.observers?_modify _ _ _ _ _ fun _ => []]
      by_cases hq : p = q ∧ phase = phase'
      · obtain ⟨rfl, rfl⟩ := hq
        rw [if_pos ⟨rfl, rfl⟩, if_pos ⟨rfl, rfl⟩]
        cases hy : n.properties.get? p with
        | none => simp [Properties.observers?, hy]
        | some y => simp [Properties.observers?, hy, takeObservers_of_node hn hy]
      · rw [if_neg hq, if_neg hq]
    · rw [if_neg hxid, hobs, if_neg hxid]
  ages i := by
    obtain ⟨k, hk, hgen, hlive⟩ := h.ages i
    refine ⟨k, hk, ?_, fun hzero n hn => ?_⟩
    · rw [Graph.restoreObservers, handleAt_modifyProperty, hgen, takeObservers,
        handleAt_modifyProperty]
    · obtain ⟨n', hn', -⟩ := (alike_modifyProperty g id p (·.setObservers phase [])).forth i n hn
      have hx := hlive hzero n' hn'
      rwa [takeObservers, handleAt_modifyProperty] at hx

end Property

end Graph

open SpatialAudio.Graph

/-! ## Recorded actions -/

namespace Recorded

variable {α β : Type}

/-- Wherever it starts, the action extends the lists of observers by those of its record. -/
def Extends (t : Recorded α) : Prop :=
  ∀ s, s.graph.Sound → Extended s.graph (t.record s) (t.action.run s).2.graph

theorem extends_quiet {a : Action α} (ha : Calm a) : (quiet a).Extends :=
  fun _ hs => (ha.steady hs).extended

theorem extends_command {a : Action α}
    (ha : ∀ s, s.graph.Sound → Spares s.graph (a.run s).2.graph) : (command a).Extends :=
  fun s hs => (ha s hs).extended

theorem extends_pure (a : α) : (pure a : Recorded α).Extends :=
  fun _ hs => (Steady.refl hs).extended

theorem Extends.bind {t : Recorded α} {f : α → Recorded β} (ht : t.Extends)
    (hf : ∀ a, (f a).Extends) : (t >>= f).Extends := by
  intro s hs
  have h := ht s hs
  rcases hrun : t.action.run s with ⟨e | a, s'⟩
  · rw [hrun] at h
    rw [record_bind_error hrun, action_bind, run_bind_error hrun]
    exact h
  · rw [hrun] at h
    rw [record_bind_ok hrun, action_bind, run_bind_ok hrun]
    exact h.trans (hf a s' h.sound)

theorem Extends.attempt {t : Recorded α} (ht : t.Extends) : t.attempt.Extends := ht

theorem extends_forM {f : α → Recorded Unit} (hf : ∀ a, (f a).Extends) (as : List α) :
    (as.forM f).Extends := by
  induction as with
  | nil => exact extends_pure ()
  | cons a as ih => exact (hf a).bind fun _ => ih

theorem extends_register (phase : Phase) (id : NodeId) (p : PropertyId) (o : Observer) :
    (register phase id p o).Extends := by
  intro s hs
  rw [register, Action.change, run_onGraph, run_change]
  dsimp only
  cases hadd : s.graph.addObserver phase id p o with
  | ok g' => exact hs.extended_addObserver hadd
  | error e => exact (Steady.refl hs).extended

theorem extends_read (f : Graph → Except Error α) : (quiet (.read f)).Extends :=
  extends_quiet fun _ => keeps_read

theorem extends_node (label : Label) : (quiet (.node label)).Extends := by
  refine extends_quiet fun g s hs => ?_
  rw [Action.node, Action.named, run_bind_ok (run_get s)]
  split <;> exact hs

theorem extends_change {f : Graph → Except Error Graph}
    (hf : ∀ {g g' : Graph}, g.Sound → f g = .ok g' → Steady g g') : (quiet (.change f)).Extends :=
  extends_quiet (calm_change hf)

theorem extends_write (entry : LogEntry) : (quiet (.write entry)).Extends :=
  extends_quiet fun _ => keeps_write entry

theorem extends_throw (e : Failure) : (quiet (throw e : Action α)).Extends := by
  refine extends_quiet fun g s hs => ?_
  cases e <;> exact hs

/-! ### What observers run -/

/-- Setting any property extends the lists of observers by those registered meanwhile. -/
def Sets (set : Setter) : Prop := ∀ id p v, (set id p v).Extends

variable {set : Setter}

theorem extends_configureStandardMap (hset : Sets set) (id : NodeId) (channels : Nat) :
    (configureStandardMap set id channels).Extends := by
  rw [configureStandardMap]
  split
  · exact extends_throw _
  · exact (extends_read _).bind fun _ => (hset _ _ _).bind fun _ => (hset _ _ _).bind fun _ =>
      hset _ _ _

theorem extends_transition (hset : Sets set) (id : NodeId) (strategy : Strategy) :
    (transition set id strategy).Extends := by
  refine (extends_read _).bind fun m => ?_
  have hdetach : ∀ x, (quiet (.change fun g => g.disconnectInterior x 0)).Extends := by
    refine fun x => extends_change fun hg hc => hg.steady (.disconnectInterior hc) ?_
    exact stays_of_slots (slots_disconnectAt (disconnectInterior_eq_ok.mp hc).2)
  -- attaching the active panner, whichever it is
  have hattach : ∀ active, Recorded.Extends (do
      let width ← quiet (.read fun g => g.outputCount active)
      quiet (.onGraph (GraphM.update fun g => g.applyLayout m.output (.symmetric width)))
      quiet (.change fun g => g.connectInterior active 0 m.output 0)
      quiet (.change fun g => do
        let m ← Multipanner.find g id
        return g.modifyAt id.index fun n =>
          { n with kind := .multipanner { m with strategy } })) := by
    intro active
    refine (extends_read _).bind fun width => ?_
    refine (extends_quiet (calm_applyLayout _ _)).bind fun _ => ?_
    refine (extends_change fun hg hc => hg.steady (.connectInterior hc) ?_).bind fun _ => ?_
    · exact stays_of_slots (slots_connectAt (connectInterior_eq_ok.mp hc).2.2)
    · refine extends_change fun hg hg' => ?_
      obtain ⟨m', -, hg'⟩ := bind_eq_ok.mp hg'
      cases hg'
      exact hg.steady_kind _ _
  refine (hdetach _).bind fun _ => (hdetach _).bind fun _ => ?_
  cases strategy with
  | hrtf => exact hattach m.hrtf
  | _ =>
    refine (extends_configureStandardMap hset _ _).bind fun _ => ?_
    refine (extends_quiet (calm_onGraph fun g hg => hg.steady_recomputeMap _)).bind fun _ => ?_
    exact hattach m.amplitude

/-- **A command extends the lists of observers by those it registers.** -/
theorem extends_perform (hset : Sets set) (c : Command) : (perform set c).Extends := by
  cases c with
  | set label p v =>
    exact (extends_node label).bind fun _ => (hset _ _ _).bind fun _ => extends_pure _
  | reset label p =>
    exact (extends_node label).bind fun _ => (extends_read _).bind fun _ =>
      (hset _ _ _).bind fun _ => extends_pure _
  | standardMap label channels =>
    exact (extends_node label).bind fun _ =>
      (extends_configureStandardMap hset _ _).bind fun _ => extends_pure _
  | observe phase label p tag vetoAbove propagate steps =>
    exact (extends_node label).bind fun _ => (extends_register _ _ _ _).bind fun _ => extends_pure _
  | associate label b l => exact extends_command fun _ => spares_performAssociate _ label b l
  | remove label => exact extends_command fun _ => spares_performRemove _ label
  | _ =>
    refine extends_command fun _ hs => (Calm.steady ?_ hs).spares
    exact calm_perform _ trivial

theorem extends_runSteps (hset : Sets set) (propagate : Bool) (steps : List Command) :
    (runSteps set propagate steps).Extends := by
  induction steps with
  | nil => exact extends_pure ()
  | cons c rest ih =>
    refine (extends_perform hset c).attempt.bind fun outcome => ?_
    match outcome with
    | .ok answer => exact (extends_write _).bind fun _ => ih
    | .error (.refused e) =>
      refine (extends_write _).bind fun _ => ?_
      cases propagate with
      | true => exact extends_throw _
      | false => exact ih
    | .error (.aborted a) => exact extends_throw _

theorem extends_runScript (hset : Sets set) (script : Script) (event : Event) :
    (runScript set script event).Extends := by
  have hsteps := extends_runSteps hset script.propagate script.steps
  refine Extends.bind (extends_quiet fun g s hs => hs) fun s => ?_
  cases event.value with
  | none => exact (extends_write _).bind fun _ => hsteps
  | some value =>
    refine (extends_write _).bind fun _ => ?_
    cases script.vetoAbove with
    | none => exact hsteps
    | some bound => exact (extends_read _).bind fun _ => hsteps

/-- **So does an observer, whatever it does.** -/
theorem extends_react (hset : Sets set) (event : Event) (o : Observer) :
    (react set event o).Extends := by
  cases o with
  | markRecompute => exact extends_change fun hg hm => hg.steady_markRecompute hm
  | forwardToPanners =>
    exact (extends_read _).bind fun _ => (extends_read _).bind fun _ =>
      (hset _ _ _).bind fun _ => hset _ _ _
  | forwardToOutput =>
    exact (extends_read _).bind fun _ => (extends_read _).bind fun _ => hset _ _ _
  | admitStrategy =>
    refine extends_quiet fun g => ?_
    rw [SpatialAudio.react]
    split
    · exact keeps_read
    · exact keeps_pure ()
  | applyStrategy => exact (extends_read _).bind fun strategy => extends_transition hset _ strategy
  | script s => exact extends_runScript hset s event

/-! ### Setting -/

/-- What happens while observers run is what they do. -/
theorem record_notify (run : Event → Observer → Recorded Unit) (phase : Phase) (event : Event)
    (s : Session) : (notify run phase event).record s
      = ((s.graph.takeObservers phase event.node event.property).1.forM (run event)).record
          { s with graph := (s.graph.takeObservers phase event.node event.property).2 } :=
  List.append_nil _

/-- **Running observers extends the lists of observers by those registered meanwhile**, although one
list is taken out all along. -/
theorem extends_notify {run : Event → Observer → Recorded Unit}
    (hrun : ∀ event o, (run event o).Extends) (phase : Phase) (event : Event) :
    (notify run phase event).Extends := by
  intro s hs
  have htaken : (s.graph.takeObservers phase event.node event.property).2.Sound :=
    hs.move (.property ..)
  have h := extends_forM (hrun event) (s.graph.takeObservers phase event.node event.property).1
    { s with graph := (s.graph.takeObservers phase event.node event.property).2 } htaken
  rw [action_notify, SpatialAudio.notify, run_bind_ok (run_get s)]
  dsimp only
  rw [run_bind_ok (run_modify _ s), run_bind_ok (run_attempt _ _), run_bind_ok (run_modify _ _),
    run_settle, record_notify, ← action_forM]
  exact h.restoreObservers

theorem sets_setWith {run : Event → Observer → Recorded Unit}
    (hrun : ∀ event o, (run event o).Extends) : Sets (setWith run) := by
  intro id p v
  refine (extends_read _).bind fun _ => (extends_notify hrun _ _).bind fun _ => ?_
  refine Extends.bind (extends_change fun hg hstore => ?_) fun _ => extends_notify hrun _ _
  exact hg.steady_store hstore

theorem sets_change (depth : Nat) : Sets (change depth) := by
  induction depth with
  | zero => exact fun _ _ _ => extends_throw _
  | succ depth ih => exact sets_setWith (extends_react ih)

theorem sets_set : Sets Recorded.set := fun _ _ _ =>
  Extends.bind (extends_quiet fun _ _ hs => hs) fun _ => sets_change _ _ _ _

end Recorded

/-! ## Calls -/

/-- A call that sets a property, to a value or to its default. -/
inductive Assignment where
  | set (id : NodeId) (p : PropertyId) (v : PropertyValue)
  | reset (id : NodeId) (p : PropertyId)

namespace Assignment

/-- Makes the call. -/
def run : Assignment → Action Unit
  | set id p v => Session.set id p v
  | reset id p => do
    let property ← .read fun g => g.property id p
    Session.set id p property.default

/-- `run`, recorded. -/
def recorded : Assignment → Recorded Unit
  | set id p v => Recorded.set id p v
  | reset id p => do
    let property ← .quiet (.read fun g => g.property id p)
    Recorded.set id p property.default

theorem action_recorded (a : Assignment) : a.recorded.action = a.run := by
  cases a with
  | set id p v => exact Recorded.action_set id p v
  | reset id p =>
    rw [run]
    simp only [← Recorded.action_set]
    rfl

theorem extends_recorded (a : Assignment) : a.recorded.Extends := by
  cases a with
  | set id p v => exact Recorded.sets_set id p v
  | reset id p => exact (Recorded.extends_read _).bind fun _ => Recorded.sets_set _ _ _

end Assignment

/-- **Setting a property keeps every list of observers, however it ends**: of a node that is alive
before and after, each property has the observers of each phase that it had, and behind them those
registered in the course of the call, in order of registration.

A handle that is good before and after names the same node, because nodes do not come back; only if
the call runs so many commands that the generation of the slot may come round, the node has to be
alive all the time for that. -/
theorem observers_of_assignment {s : Session} (hs : s.Reachable) (a : Assignment) :
    a.recorded.action = a.run ∧ ∀ x n n', s.graph.node x = .ok n →
      (a.run.run s).2.graph.node x = .ok n' →
      Survives x (a.recorded.record s) ∨ (a.recorded.record s).length < UInt32.size →
      ∀ phase p, n'.properties.observers? phase p
        = (n.properties.observers? phase p).map
            (· ++ registrations (a.recorded.record s) phase x p) := by
  refine ⟨a.action_recorded, fun x n n' hn hn' halive => ?_⟩
  have h := a.extends_recorded s hs.sound
  rw [a.action_recorded] at h
  have hx : Survives x (a.recorded.record s) := halive.elim id fun hr => h.survives hr hn hn'
  obtain ⟨m, hm, hobs⟩ := h.node hn hx
  cases hm.symm.trans hn'
  exact hobs

/-- The tag of a script. -/
def Observer.tag : Observer → String
  | .script s => s.tag
  | _ => ""

/-- Two gains.  The first observer of one registers another, sets the property it observes and
removes the other gain; the second fails. -/
def watched : Session :=
  let s := ((Session.new 44100 64).step (.create "gain" (.gain 1))).2
  let s := (s.step (.create "other" (.gain 1))).2
  let s := (s.step (.command (.observe .before "gain" .suspended "first" none false
    [.observe .before "gain" .suspended "late" none false [],
      .observe .after "gain" .suspended "later" none false [],
      .set "gain" .suspended (.int 0), .remove "other"]))).2
  (s.step (.command (.observe .before "gain" .suspended "second" none true
    [.reset "gain" .strategy]))).2

theorem reachable_watched : watched.Reachable :=
  .step (.step (.step (.step (.new 44100 64) _) _) _) _

theorem observers_watched : ∃ n n' : Node,
    watched.graph.node ⟨0, 0⟩ = .ok n ∧
    (n.properties.observers? .before .suspended).map (List.map Observer.tag)
      = some ["first", "second"] ∧
    ((Assignment.set ⟨0, 0⟩ .suspended (.int 1)).run.run watched).1.isOk = false ∧
    ((Assignment.set ⟨0, 0⟩ .suspended (.int 1)).run.run watched).2.graph.contains ⟨1, 0⟩ = false ∧
    ((Assignment.set ⟨0, 0⟩ .suspended (.int 1)).run.run watched).2.graph.node ⟨0, 0⟩ = .ok n' ∧
    (n'.properties.observers? .before .suspended).map (List.map Observer.tag)
      = some ["first", "second", "late"] := by
  have hbefore : (watched.graph.node ⟨0, 0⟩).toOption.map
      (fun n => (n.properties.observers? .before .suspended).map (List.map Observer.tag))
      = some (some ["first", "second"]) := by decide +kernel
  obtain ⟨n, hn, htags⟩ := map_toOption_eq_some.mp hbefore
  have halive : ((Assignment.set ⟨0, 0⟩ .suspended (.int 1)).run.run watched).2.graph.contains
      ⟨0, 0⟩ = true := by decide +kernel
  obtain ⟨n', hn'⟩ := Graph.contains_iff.mp halive
  have hobs := (observers_of_assignment reachable_watched (.set ⟨0, 0⟩ .suspended (.int 1))).2
    ⟨0, 0⟩ n n' hn hn' (.inl (by decide +kernel)) .before .suspended
  refine ⟨n, n', hn, htags, by decide +kernel, by decide +kernel, hn', ?_⟩
  obtain ⟨os, hos, htags⟩ := Option.map_eq_some_iff.mp htags
  have hlate : (registrations ((Assignment.set ⟨0, 0⟩ .suspended (.int 1)).recorded.record watched)
      .before ⟨0, 0⟩ .suspended).map Observer.tag = ["late"] := by decide +kernel
  rw [hobs, hos, Option.map_some, Option.map_some, List.map_append, htags, hlate]
  rfl

end SpatialAudio
