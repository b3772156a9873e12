import SpatialAudio.Proofs.Stability

/-!
# Proofs/Runs — the states that sessions reach

`Session.Reachable` are the states of all sessions: between steps, whatever their outcome, and within
them.  A `Move` is one operation on a graph; observers that are no scripts may make any of them, and
so do the parts of a longer operation.  What every move keeps holds of all reachable graphs
(`Reachable.invariant`); soundness is such (`Sound.move`, `Reachable.sound`).
-/

namespace SpatialAudio

/-- One operation on a graph. -/
inductive Graph.Move : Graph → Graph → Prop
  | associate (g : Graph) (k : NodeKind) (l : Layout) : Move g ((associate k l).run g).2
  | assemble (g : Graph) (data : Dataset) : Move g ((Multipanner.assemble data).run g).2
  | remove {g g' : Graph} {id : NodeId} : g.remove id = .ok g' → Move g g'
  | connect {g g' : Graph} {a b : NodeId} {o k : Nat} : g.connect a o b k = .ok g' → Move g g'
  | connectInterior {g g' : Graph} {a b : NodeId} {o k : Nat} :
      g.connectInterior a o b k = .ok g' → Move g g'
  | disconnect {g g' : Graph} {a : NodeId} {o : Nat} : g.disconnect a o = .ok g' → Move g g'
  | disconnectInterior {g g' : Graph} {a : NodeId} {o : Nat} :
      g.disconnectInterior a o = .ok g' → Move g g'
  | applyLayout {g g' : Graph} {id : NodeId} {l : Layout} : g.applyLayout id l = .ok g' → Move g g'
  /-- Values and observers, whatever becomes of them. -/
  | property (g : Graph) (id : NodeId) (p : PropertyId) (f : Property → Property) :
      Move g (g.modifyProperty id p f)
  /-- The state of a node, whatever becomes of it. -/
  | kind (g : Graph) (i : Nat) (f : NodeKind → NodeKind) :
      Move g (g.modifyAt i fun n => { n with kind := f n.kind })
  | recomputeMap (g : Graph) (id : NodeId) : Move g ((recomputeMap id).run g).2
  | scheduleFor {g : Graph} {id : NodeId} {n : Node} : g.node id = .ok n →
      Move g (g.scheduleFor id.index)
  | proposeAll {g g' : Graph} {schedule : List Nat} {refused : Option (Nat × Error)} :
      proposeAll schedule g = .ok (g', refused) → Move g g'
  | processAt {g g' : Graph} {i : Nat} : g.processAt i = .ok g' → Move g g'
  | clearAround (g : Graph) (i : Nat) : Move g (g.clearAround i)
  | abandon (g : Graph) (root block culprit : Nat) (e : Error) :
      Move g (g.abandon root block culprit e)
  | pull {g g' : Graph} {id : NodeId} : g.pull id = .ok g' → Move g g'
  /-- Counted blocks, kept faults and queued samples. -/
  | books (g : Graph) (blocks : Nat) (faults : List Fault) (rings : List Ring) :
      Move g { g with blocks := blocks, faults := faults, rings := rings }

/-- The states that sessions reach. -/
inductive Session.Reachable : Session → Prop
  | new (rate capacity : Nat) : Reachable (Session.new rate capacity)
  | step {s : Session} : Reachable s → (step : Step) → Reachable (s.step step).2
  | move {s : Session} {g : Graph} : Reachable s → s.graph.Move g → Reachable { s with graph := g }

namespace Graph

variable {g g' : Graph}

theorem Sound.applyLayout (h : g.Sound) {id : NodeId} {l : Layout}
    (happly : g.applyLayout id l = .ok g') : g'.Sound := by
  obtain ⟨_, -, hw⟩ := h.exists_applyLayout happly
  exact hw.sound

/-- **Every move keeps a graph sound.** -/
theorem Sound.move (h : g.Sound) (hm : g.Move g') : g'.Sound := by
  cases hm with
  | associate k l => exact h.associate k l
  | assemble data => exact Multipanner.sound_assemble h data
  | remove hr => exact h.remove hr
  | connect hc => exact h.connectAt (connect_eq_ok.mp hc).2.2
  | connectInterior hc => exact h.connectAt (connectInterior_eq_ok.mp hc).2.2
  | disconnect hc => exact h.disconnectAt (disconnect_eq_ok.mp hc).2
  | disconnectInterior hc => exact h.disconnectAt (disconnectInterior_eq_ok.mp hc).2
  | applyLayout happly => exact h.applyLayout happly
  | property id p f => exact h.alike (alike_modifyProperty g id p f)
  | kind i f =>
    refine h.alike (alike_modifyAt ?_ i)
    exact fun n => ⟨⟨rfl, rfl, rfl⟩, rfl, rfl⟩
  | recomputeMap id => exact h.recomputeMap id
  | scheduleFor hn => exact h.scheduleFor (nodeAt?_of_node hn)
  | proposeAll hp => exact h.pulled (pulled_proposeAll hp)
  | processAt hp => exact h.pulled (pulled_processAt hp)
  | clearAround i => exact h.pulled (pulled_clearOwners _ _ g)
  | abandon root block culprit e => exact h.pulled (pulled_abandon g root block culprit e)
  | pull hp => exact h.pull hp
  | books blocks faults rings => exact h.pullStep (pullStep_books g blocks faults rings)

/-- What every move keeps is stable without any restriction, and survives aborts. -/
theorem stable_of_move {I : Graph → Prop} (hI : ∀ {g g' : Graph}, I g → g.Move g' → I g') :
    Stable .lax (fun _ => True) I I where
  halts _ h := h
  halted g id p f h := hI h (.property g id p f)
  spared _ _ _ := rfl
  observed _ _ := trivial
  remapped _ _ := rfl
  books g rings faults h := hI h (.books g g.blocks faults rings)
  associate g k l _ h := hI h (.associate g k l)
  fresh _ _ _ _ _ _ _ := trivial
  assemble g data h := hI h (.assemble g data)
  assembled _ _ _ _ _ _ := trivial
  property g id p f _ h := hI h (.property g id p f)
  remove _ _ _ _ h hr := hI h (.remove hr)
  connect _ _ _ _ _ _ h hc := hI h (.connect hc)
  disconnect _ _ _ _ h hc := hI h (.disconnect hc)
  connectInterior _ _ _ _ _ _ _ _ h hc := hI h (.connectInterior hc)
  disconnectInterior _ _ _ _ _ h hc := hI h (.disconnectInterior hc)
  applyLayout _ _ _ _ _ h happly := hI h (.applyLayout happly)
  recomputeMap g id _ h := hI h (.recomputeMap g id)
  markRecompute g g' id h hm := by
    obtain ⟨n, hn, hm⟩ := bind_eq_ok.mp hm
    obtain ⟨q, -, hm⟩ := bind_eq_ok.mp hm
    rw [← pure_eq_ok.mp hm]
    exact hI h (.kind g id.index fun _ => .hrtfPanner q.markRecompute)
  strategy g id m strategy _ h _ :=
    hI h (.kind g id.index fun _ => .multipanner { m with strategy })
  family _ _ _ _ _ _ := ⟨trivial, trivial, trivial⟩
  pull _ _ _ h hp := hI h (.pull hp)

end Graph

open SpatialAudio.Graph

/-- A step ends in the state that its action ends in. -/
theorem Session.snd_step (s : Session) (step : Step) : (s.step step).2 = (step.run.run s).2 := by
  rw [Session.step]
  split <;> next heq => rw [heq]

/-- What is stable without any restriction, and survives aborts, is kept by every step. -/
theorem Stable.snd_step {I : Graph → Prop} (h : Stable .lax (fun _ => True) I I) {s : Session}
    (hs : I s.graph) (step : Step) : I (s.step step).2.graph := by
  rw [Session.snd_step, ← Step.runUnder_lax]
  have hstep := h.outcome_step (fun _ _ _ _ _ hfree => absurd trivial hfree) step s hs
  rcases hr : (step.runUnder .lax).run s with ⟨(_ | _) | _, s'⟩
  · rw [hr] at hstep
    exact hstep
  · rw [hr] at hstep
    exact hstep
  · rw [hr] at hstep
    exact hstep

/-- **What every move keeps holds of every reachable graph.** -/
theorem Session.Reachable.invariant {I : Graph → Prop}
    (hnew : ∀ rate capacity, I (Graph.new rate capacity))
    (hmove : ∀ {g g' : Graph}, I g → g.Move g' → I g') {s : Session} (h : s.Reachable) :
    I s.graph := by
  induction h with
  | new rate capacity => exact hnew _ _
  | step _ step ih => exact (stable_of_move hmove).snd_step ih step
  | move _ hm ih => exact hmove ih hm

/-- **Every reachable graph is sound.** -/
theorem Session.Reachable.sound {s : Session} (h : s.Reachable) : s.graph.Sound :=
  h.invariant sound_new Sound.move

end SpatialAudio
