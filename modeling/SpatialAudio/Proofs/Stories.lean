import SpatialAudio.Proofs.Plans
import SpatialAudio.Proofs.Runs

/-!
# Proofs/Stories — all that happens in the course of a session, in order

The **tale** of a plan lists what happens to the graph while it is carried out, and every call that
stores a value in a property.  A value is set as `setWith` sets it: its tale has the observers of the
phase before, the value being stored, and the observers of the phase after, each with its own plan
(`changeTale`).  The tale leads to the graph that the session ends with (`replay_tale`), so the
graphs in the course of a session are those that its tale passes through (`Session.Course`).

What every happening keeps holds throughout (`Lasting.course`).  A value may be stored long after it
was checked, with any number of happenings in between; so an invariant comes with what a check
vouches for (`Lasting.checked`) and may rely on it (`Lasting.stored`).
-/

namespace SpatialAudio

open SpatialAudio.Graph

/-! ## Happenings and calls -/

/-- What happens to a graph. -/
inductive Happening where
  | deed {α : Type} (d : Deed α)
  /-- The observers of a phase were taken out. -/
  | taken (phase : Phase) (id : NodeId) (property : PropertyId)
  /-- They were put back. -/
  | restored (phase : Phase) (id : NodeId) (property : PropertyId) (os : List Observer)
  | stored (id : NodeId) (property : PropertyId) (value : PropertyValue)

/-- The graph after a happening. -/
def Happening.after : Happening → Graph → Graph
  | deed d, g => d.after g
  | taken phase id p, g => (g.takeObservers phase id p).2
  | restored phase id p os, g => g.restoreObservers phase id p os
  | stored id p v, g => g.modifyProperty id p (·.store v)

/-- The graph after some happenings. -/
def replay (g : Graph) (happenings : List Happening) : Graph :=
  happenings.foldl (fun g h => h.after g) g

/-- An observer at work: it was taken out with those that ran before it and those that wait. -/
structure Frame where
  phase : Phase
  node : NodeId
  property : PropertyId
  through : List Observer
  running : Observer
  waiting : List Observer

/-- A call that stored a value. -/
structure Call where
  /-- The observers at work, the innermost first. -/
  stack : List Frame
  node : NodeId
  property : PropertyId
  value : PropertyValue
  /-- The graph with the value in it. -/
  graph : Graph
  /-- The observers that ran because of it, in order. -/
  invoked : List Observer
  /-- How the last of them ended. -/
  outcome : Except Failure Unit

/-- What happens, and the calls among it. -/
structure Tale where
  happenings : List Happening
  calls : List Call

namespace Tale

/-- Nothing happens. -/
def empty : Tale := ⟨[], []⟩

/-- One thing happens. -/
def single (h : Happening) : Tale := ⟨[h], []⟩

instance : Append Tale := ⟨fun t u => ⟨t.happenings ++ u.happenings, t.calls ++ u.calls⟩⟩

@[simp] theorem happenings_append (t u : Tale) :
    (t ++ u).happenings = t.happenings ++ u.happenings := rfl

@[simp] theorem calls_append (t u : Tale) : (t ++ u).calls = t.calls ++ u.calls := rfl

@[simp] theorem happenings_empty : empty.happenings = [] := rfl

@[simp] theorem happenings_single (h : Happening) : (single h).happenings = [h] := rfl

end Tale

@[simp] theorem replay_nil (g : Graph) : replay g [] = g := rfl

@[simp] theorem replay_cons (g : Graph) (h : Happening) (hs : List Happening) :
    replay g (h :: hs) = replay (h.after g) hs := rfl

@[simp] theorem replay_append (g : Graph) (hs ks : List Happening) :
    replay g (hs ++ ks) = replay (replay g hs) ks := List.foldl_append

/-! ## Tales -/

/-- What happens when a property is set. -/
abbrev Teller := NodeId → PropertyId → PropertyValue → Session → Tale

/-- What happens when a plan is carried out. -/
def Plan.tale {α : Type} (setter : Setter) (tell : Teller) : Plan α → Session → Tale
  | done _, _ => .empty
  | look next, s => (next s).tale setter tell s
  | note f next, s => next.tale setter tell { f s with graph := s.graph }
  | deed d next, s =>
    let r := d.run.run s.graph
    .single (.deed d) ++ (next r.1).tale setter tell { s with graph := r.2 }
  | set id p v next, s =>
    let r := (setter id p v).run s
    tell id p v s ++ (next r.1).tale setter tell r.2

/-- The observers that run, up to the first that fails. -/
def invoked (run : Observer → Action Unit) : List Observer → Session → List Observer
  | [], _ => []
  | o :: rest, s =>
    o :: match (run o).run s with
      | (.ok _, s') => invoked run rest s'
      | (.error _, _) => []

/-- What happens while they run. -/
def roundsTale (run : Observer → Action Unit)
    (tell : (through : List Observer) → Observer → (waiting : List Observer) → Session → Tale) :
    (through waiting : List Observer) → Session → Tale
  | _, [], _ => .empty
  | through, o :: rest, s =>
    tell through o rest s ++
      match (run o).run s with
      | (.ok _, s') => roundsTale run tell (through ++ [o]) rest s'
      | (.error _, _) => .empty

/-- What happens when the observers of a phase are notified. -/
def notifyTale (run : Event → Observer → Action Unit)
    (tell : Frame → Event → Observer → Session → Tale) (phase : Phase) (event : Event)
    (s : Session) : Tale :=
  let (taken, g) := s.graph.takeObservers phase event.node event.property
  .single (.taken phase event.node event.property)
    ++ roundsTale (run event) (fun through o waiting =>
        tell ⟨phase, event.node, event.property, through, o, waiting⟩ event o) [] taken
        { s with graph := g }
    ++ .single (.restored phase event.node event.property taken)

/-- A value is in its place, and who hears of it. -/
def storedCall (run : Event → Observer → Action Unit) (stack : List Frame) (id : NodeId)
    (p : PropertyId) (v : PropertyValue) (s : Session) : Call :=
  let (taken, g) := s.graph.takeObservers .after id p
  ⟨stack, id, p, v, s.graph, invoked (run ⟨id, p, none⟩) taken { s with graph := g },
    ((notify run .after ⟨id, p, none⟩).run s).1⟩

/-- What happens when a property is set with `setWith`. -/
def setTale (run : Event → Observer → Action Unit)
    (tell : Frame → Event → Observer → Session → Tale) (stack : List Frame) : Teller :=
  fun id p v s =>
    match s.graph.property id p >>= fun x => x.validate p v with
    | .error _ => .empty
    | .ok _ =>
      notifyTale run tell .before ⟨id, p, some v⟩ s ++
        match (notify run .before ⟨id, p, some v⟩).run s with
        | (.error _, _) => .empty
        | (.ok _, s₁) =>
          match s₁.graph.store id p v with
          | .error _ => .empty
          | .ok g =>
            let s₂ := { s₁ with graph := g }
            ⟨[.stored id p v], [storedCall run stack id p v s₂]⟩
              ++ notifyTale run tell .after ⟨id, p, none⟩ s₂

/-- What happens when a property is set with `change`, below the observers of a stack. -/
def changeTale : (depth : Nat) → (stack : List Frame) → Teller
  | 0, _ => fun _ _ _ _ => .empty
  | depth + 1, stack =>
    setTale (react (change depth)) (fun frame event o =>
      (o.plan event).tale (change depth) (changeTale depth (frame :: stack))) stack

/-- What happens when a property of a session's graph is set. -/
def Session.setTale : Teller := fun id p v s =>
  changeTale (s.graph.observerCount + 1 + spareDepth) [] id p v s

/-- What happens in a step. -/
def Step.tale (step : Step) (s : Session) : Tale := step.plan.tale Session.set Session.setTale s

/-- The session after some steps, whatever their outcome. -/
def Session.afterSteps (s : Session) (steps : List Step) : Session :=
  steps.foldl (fun s step => (s.step step).2) s

/-- What happens in some steps. -/
def Session.tale (s : Session) : List Step → Tale
  | [] => .empty
  | step :: rest => step.tale s ++ (s.step step).2.tale rest

/-! ## Tales lead to where actions lead -/

/-- The tale of an action leads to the graph that the action leaves. -/
def ToldBy {α : Type} (a : Action α) (tale : Session → Tale) : Prop :=
  ∀ s, (a.run s).2.graph = replay s.graph (tale s).happenings

theorem toldBy_plan {α : Type} {set : Setter} {tell : Teller}
    (hset : ∀ id p v, ToldBy (set id p v) (tell id p v)) (plan : Plan α) :
    ToldBy (plan.run set) (plan.tale set tell) := by
  intro s
  induction plan generalizing s with
  | done r =>
    rw [Plan.run, run_settle]
    rfl
  | look next ih => exact ih s s
  | note f next ih => exact ih _
  | deed d next ih => exact ih _ _
  | set id p v next ih =>
    rw [Plan.tale, Tale.happenings_append, replay_append, ← hset id p v s]
    exact ih _ _

/-- Observers run while their list is taken out, and it is put back in the end. -/
theorem run_notify_eq (run : Event → Observer → Action Unit) (phase : Phase) (event : Event)
    (s : Session) {taken : List Observer} {g : Graph}
    (h : s.graph.takeObservers phase event.node event.property = (taken, g)) :
    (notify run phase event).run s
      = (((taken.forM (run event)).run { s with graph := g }).1,
        { ((taken.forM (run event)).run { s with graph := g }).2 with
          graph := ((taken.forM (run event)).run { s with graph := g }).2.graph.restoreObservers
            phase event.node event.property taken }) := by
  rw [notify, run_bind_ok (run_get s)]
  simp only [h]
  rw [run_bind_ok (run_modify _ s), run_bind_ok (run_attempt _ _), run_bind_ok (run_modify _ _),
    run_settle]

theorem toldBy_rounds {run : Observer → Action Unit}
    {tell : List Observer → Observer → List Observer → Session → Tale}
    (hrun : ∀ through o waiting, ToldBy (run o) (tell through o waiting))
    (through waiting : List Observer) :
    ToldBy (waiting.forM run) (roundsTale run tell through waiting) := by
  intro s
  induction waiting generalizing through s with
  | nil => rfl
  | cons o rest ih =>
    change ((run o >>= fun _ => rest.forM run).run s).2.graph = _
    rw [run_bind, roundsTale, Tale.happenings_append, replay_append, ← hrun through o rest s]
    rcases (run o).run s with ⟨_ | _, s'⟩
    · rfl
    · exact ih (through ++ [o]) s'

theorem toldBy_notify {run : Event → Observer → Action Unit}
    {tell : Frame → Event → Observer → Session → Tale}
    (hrun : ∀ frame event o, ToldBy (run event o) (tell frame event o)) (phase : Phase)
    (event : Event) : ToldBy (notify run phase event) (notifyTale run tell phase event) := by
  intro s
  rcases h : s.graph.takeObservers phase event.node event.property with ⟨taken, g⟩
  have hg : (s.graph.takeObservers phase event.node event.property).2 = g := by rw [h]
  rw [run_notify_eq run phase event s h, notifyTale, h]
  simp only [Tale.happenings_append, Tale.happenings_single, replay_append, replay_cons, replay_nil,
    Happening.after, hg]
  rw [← toldBy_rounds (fun _ o _ => hrun _ event o) [] taken { s with graph := g }]

theorem toldBy_setWith {run : Event → Observer → Action Unit}
    {tell : Frame → Event → Observer → Session → Tale}
    (htold : ∀ frame event o, ToldBy (run event o) (tell frame event o)) (stack : List Frame)
    (id : NodeId) (p : PropertyId) (v : PropertyValue) :
    ToldBy (setWith run id p v) (setTale run tell stack id p v) := by
  intro s
  rw [setTale, setWith]
  cases hvalid : s.graph.property id p >>= fun x => x.validate p v with
  | error e => rw [run_bind_error (run_read_error hvalid)]; rfl
  | ok _ =>
    rw [run_bind_ok (run_read_ok hvalid), run_bind, Tale.happenings_append, replay_append,
      ← toldBy_notify htold .before ⟨id, p, some v⟩ s]
    rcases (notify run .before ⟨id, p, some v⟩).run s with ⟨_ | _, s₁⟩
    · rfl
    · cases hstore : s₁.graph.store id p v with
      | error e =>
        have hrefused : (Action.change fun g => g.store id p v).run s₁ = (.error (.refused e), s₁) :=
          run_change_error hstore
        simp only [run_bind_error hrefused, hstore, Tale.happenings_empty, replay_nil]
      | ok g =>
        obtain ⟨x, -, hg⟩ := bind_eq_ok.mp hstore
        have hg : s₁.graph.modifyProperty id p (·.store v) = g := pure_eq_ok.mp hg
        have hrun : (Action.change fun g => g.store id p v).run s₁
            = (.ok (), { s₁ with graph := g }) := run_change_ok hstore
        simp only [run_bind_ok hrun, hstore, Tale.happenings_append, replay_append, replay_cons,
          replay_nil, Happening.after, hg]
        exact toldBy_notify htold .after ⟨id, p, none⟩ { s₁ with graph := g }

theorem toldBy_change (depth : Nat) (stack : List Frame) (id : NodeId) (p : PropertyId)
    (v : PropertyValue) : ToldBy (change depth id p v) (changeTale depth stack id p v) := by
  induction depth generalizing stack id p v with
  | zero => exact fun _ => rfl
  | succ depth ih =>
    refine toldBy_setWith (fun frame event o => ?_) stack id p v
    rw [← Observer.run_plan]
    exact toldBy_plan (ih (frame :: stack)) (o.plan event)

theorem toldBy_set (id : NodeId) (p : PropertyId) (v : PropertyValue) :
    ToldBy (Session.set id p v) (Session.setTale id p v) := by
  intro s
  rw [Session.set, run_bind_ok (run_get s)]
  exact toldBy_change _ [] id p v s

theorem toldBy_step (step : Step) : ToldBy step.run step.tale := by
  rw [← step.run_plan]
  exact toldBy_plan toldBy_set step.plan

theorem graph_step (s : Session) (step : Step) :
    (s.step step).2.graph = replay s.graph (step.tale s).happenings := by
  rw [Session.snd_step, toldBy_step step s]

/-- **The tale of a session leads to the graph that it ends with.** -/
theorem replay_tale (s : Session) (steps : List Step) :
    replay s.graph (s.tale steps).happenings = (s.afterSteps steps).graph := by
  induction steps generalizing s with
  | nil => rfl
  | cons step rest ih =>
    rw [Session.tale, Tale.happenings_append, replay_append, ← graph_step, ih]
    rfl

/-! ## The course of a session -/

/-- A graph in the course of some steps. -/
def Session.Course (s : Session) (steps : List Step) (g : Graph) : Prop :=
  ∃ hs, hs <+: (s.tale steps).happenings ∧ replay s.graph hs = g

theorem Session.course_afterSteps (s : Session) (steps : List Step) :
    s.Course steps (s.afterSteps steps).graph := ⟨_, List.prefix_rfl, replay_tale s steps⟩

/-- A move was made, or none. -/
abbrev Graph.Moved : Graph → Graph → Prop := Relation.ReflGen Graph.Move

theorem moved_update {g : Graph} {f : Graph → Except Failure Graph}
    (hf : ∀ g', f g = .ok g' → g.Move g') : g.Moved ((GraphM.update f).run g).2 :=
  inv_update (I := g.Moved) .refl fun g' hg' => .single (hf g' hg')

theorem moved_change {g : Graph} {f : Graph → Except Error Graph}
    (hf : ∀ g', f g = .ok g' → g.Move g') : g.Moved ((GraphM.change f).run g).2 :=
  inv_change (I := g.Moved) .refl fun g' hg' => .single (hf g' hg')

/-- **Every deed is a move, if it does anything.** -/
theorem Deed.moved {α : Type} (d : Deed α) (g : Graph) : g.Moved (d.after g) := by
  cases d with
  | associate kind layout => exact .single (.associate g kind layout)
  | assemble data => exact .single (.assemble g data)
  | remove id => exact moved_change fun _ => .remove
  | connect source o target i => exact moved_change fun _ => .connect
  | connectInterior source o target i => exact moved_change fun _ => .connectInterior
  | disconnect source o => exact moved_change fun _ => .disconnect
  | disconnectInterior source o => exact moved_change fun _ => .disconnectInterior
  | arrange id layout => exact moved_update fun _ => .applyLayout
  | observe phase id p o =>
    refine moved_change fun g' hg' => ?_
    obtain ⟨_, -, hg'⟩ := bind_eq_ok.mp hg'
    cases hg'
    exact .property g id p _
  | recomputeMap id => exact .single (.recomputeMap g id)
  | markRecompute id =>
    refine moved_change fun g' hg' => ?_
    obtain ⟨_, -, hg'⟩ := bind_eq_ok.mp hg'
    obtain ⟨q, -, hg'⟩ := bind_eq_ok.mp hg'
    cases hg'
    exact .kind g id.index fun _ => .hrtfPanner q.markRecompute
  | adopt id strategy =>
    refine moved_change fun g' hg' => ?_
    obtain ⟨m, -, hg'⟩ := bind_eq_ok.mp hg'
    cases hg'
    exact .kind g id.index fun _ => .multipanner { m with strategy }
  | pull id => exact moved_update fun _ => .pull
  | addRing capacity =>
    rw [Deed.after, Deed.run, Graph.addRing]
    split
    · exact .refl
    · exact .single (.books g g.blocks g.faults _)
  | clearFaults => exact .single (.books g g.blocks [] g.rings)
  | refill number ring => exact .single (.books g g.blocks g.faults _)

theorem Happening.moved (h : Happening) (g : Graph) : g.Moved (h.after g) := by
  cases h with
  | deed d => exact d.moved g
  | taken phase id p => exact .single (.property g id p _)
  | restored phase id p os => exact .single (.property g id p _)
  | stored id p v => exact .single (.property g id p _)

theorem Graph.Sound.moved {g g' : Graph} (h : g.Sound) (hm : g.Moved g') : g'.Sound := by
  cases hm with
  | refl => exact h
  | single hm => exact h.move hm

theorem Graph.Sound.happening {g : Graph} (h : g.Sound) (k : Happening) : (k.after g).Sound :=
  h.moved (k.moved g)

theorem Graph.Sound.replay {g : Graph} (h : g.Sound) (ks : List Happening) :
    (SpatialAudio.replay g ks).Sound := by
  induction ks generalizing g with
  | nil => exact h
  | cons k ks ih => exact ih (h.happening k)

theorem Session.Reachable.replay {s : Session} (h : s.Reachable) (hs : List Happening) :
    Session.Reachable { s with graph := replay s.graph hs } := by
  induction hs generalizing s with
  | nil => exact h
  | cons k hs ih =>
    have hk := k.moved s.graph
    rw [replay_cons]
    generalize k.after s.graph = g at hk ⊢
    cases hk with
    | refl => exact ih h
    | single hm => exact ih (h.move hm)

/-- **The course of a session passes through reachable states.** -/
theorem Session.Course.reachable {s : Session} (h : s.Reachable) {steps : List Step} {g : Graph}
    (hg : s.Course steps g) : Session.Reachable { s with graph := g } := by
  obtain ⟨hs, -, rfl⟩ := hg
  exact h.replay hs

/-! ## What lasts -/

/-- What an invariant is kept by in the course of a session; `A` says what a check vouches for. -/
structure Lasting (I : Graph → Prop) (A : PropertyId → PropertyValue → Prop) : Prop where
  deed : ∀ {α : Type} (d : Deed α) g, I g → I (d.after g)
  observers : ∀ g id p phase (f : List Observer → List Observer), I g →
    I (g.modifyProperty id p fun x => x.setObservers phase (f (x.observers phase)))
  checked : ∀ g id p x v, I g → g.property id p = .ok x → x.validate p v = .ok () → A p v
  stored : ∀ g id p v, A p v → I g → I (g.modifyProperty id p (·.store v))

/-- A value is stored only if it was checked. -/
def Happening.Lawful (A : PropertyId → PropertyValue → Prop) : Happening → Prop
  | stored _ p v => A p v
  | _ => True

/-- Only values that were checked are stored. -/
def Tale.Lawful (A : PropertyId → PropertyValue → Prop) (t : Tale) : Prop :=
  ∀ h ∈ t.happenings, h.Lawful A

section Lasting

variable {I : Graph → Prop} {A : PropertyId → PropertyValue → Prop}

theorem lawful_empty : Tale.empty.Lawful A := fun _ hh => absurd hh List.not_mem_nil

theorem lawful_single {h : Happening} (hh : h.Lawful A) : (Tale.single h).Lawful A :=
  fun _ hk => List.mem_singleton.mp hk ▸ hh

theorem Tale.Lawful.append {t u : Tale} (ht : t.Lawful A) (hu : u.Lawful A) : (t ++ u).Lawful A :=
  fun h hh => (List.mem_append.mp hh).elim (ht h) (hu h)

namespace Lasting

theorem happening (hI : Lasting I A) {h : Happening} (hh : h.Lawful A) {g : Graph} (hg : I g) :
    I (h.after g) := by
  cases h with
  | deed d => exact hI.deed d g hg
  | taken phase id p => exact hI.observers g id p phase (fun _ => []) hg
  | restored phase id p os => exact hI.observers g id p phase (os ++ ·) hg
  | stored id p v => exact hI.stored g id p v hh hg

theorem replay (hI : Lasting I A) {hs : List Happening} (hhs : ∀ h ∈ hs, h.Lawful A) {g : Graph}
    (hg : I g) : I (replay g hs) := by
  induction hs generalizing g with
  | nil => exact hg
  | cons h hs ih =>
    obtain ⟨hh, hhs⟩ := List.forall_mem_cons.mp hhs
    exact ih hhs (hI.happening hh hg)

/-- The tale of an action stores only what was checked, if it starts with the invariant. -/
def Observes (I : Graph → Prop) (A : PropertyId → PropertyValue → Prop) (tale : Session → Tale) :
    Prop := ∀ s, I s.graph → (tale s).Lawful A

/-- Then the action keeps the invariant. -/
theorem of_toldBy (hI : Lasting I A) {α : Type} {a : Action α} {tale : Session → Tale}
    (htold : ToldBy a tale) (htale : Observes I A tale) {s : Session} (hs : I s.graph) :
    I (a.run s).2.graph := by
  rw [htold s]
  exact hI.replay (htale s hs) hs

theorem observes_plan (hI : Lasting I A) {α : Type} {set : Setter} {tell : Teller}
    (htold : ∀ id p v, ToldBy (set id p v) (tell id p v))
    (htell : ∀ id p v, Observes I A (tell id p v)) (plan : Plan α) :
    Observes I A (plan.tale set tell) := by
  intro s hs
  induction plan generalizing s with
  | done r => exact lawful_empty
  | look next ih => exact ih s s hs
  | note f next ih => exact ih _ hs
  | deed d next ih => exact (lawful_single (h := .deed d) trivial).append (ih _ _ (hI.deed d s.graph hs))
  | set id p v next ih =>
    exact (htell id p v s hs).append (ih _ _ (hI.of_toldBy (htold id p v) (htell id p v) hs))

theorem observes_rounds (hI : Lasting I A) {run : Observer → Action Unit}
    {tell : List Observer → Observer → List Observer → Session → Tale}
    (htold : ∀ through o waiting, ToldBy (run o) (tell through o waiting))
    (htell : ∀ through o waiting, Observes I A (tell through o waiting))
    (through waiting : List Observer) : Observes I A (roundsTale run tell through waiting) := by
  intro s hs
  induction waiting generalizing through s with
  | nil => exact lawful_empty
  | cons o rest ih =>
    have hs' := hI.of_toldBy (htold through o rest) (htell through o rest) hs
    rw [roundsTale]
    refine (htell through o rest s hs).append ?_
    split
    · next heq =>
      rw [heq] at hs'
      exact ih _ _ hs'
    · exact lawful_empty

theorem observes_notify (hI : Lasting I A) {run : Event → Observer → Action Unit}
    {tell : Frame → Event → Observer → Session → Tale}
    (htold : ∀ frame event o, ToldBy (run event o) (tell frame event o))
    (htell : ∀ frame event o, Observes I A (tell frame event o)) (phase : Phase) (event : Event) :
    Observes I A (notifyTale run tell phase event) := by
  intro s hs
  have htaken : I (s.graph.takeObservers phase event.node event.property).2 :=
    hI.observers _ _ _ _ (fun _ => []) hs
  have hrounds := hI.observes_rounds (fun through o waiting =>
      htold ⟨phase, event.node, event.property, through, o, waiting⟩ event o)
    (fun through o waiting =>
      htell ⟨phase, event.node, event.property, through, o, waiting⟩ event o) []
  exact ((lawful_single (h := .taken phase event.node event.property) trivial).append
    (hrounds _ _ htaken)).append
      (lawful_single (h := .restored phase event.node event.property _) trivial)

theorem observes_setWith (hI : Lasting I A) {run : Event → Observer → Action Unit}
    {tell : Frame → Event → Observer → Session → Tale}
    (htold : ∀ frame event o, ToldBy (run event o) (tell frame event o))
    (htell : ∀ frame event o, Observes I A (tell frame event o)) (stack : List Frame)
    (id : NodeId) (p : PropertyId) (v : PropertyValue) :
    Observes I A (setTale run tell stack id p v) := by
  intro s hs
  have hbefore := hI.observes_notify htold htell .before ⟨id, p, some v⟩
  have hs₁ := hI.of_toldBy (toldBy_notify htold .before ⟨id, p, some v⟩) hbefore hs
  rw [setTale]
  split
  · exact lawful_empty
  · next hvalid =>
    obtain ⟨x, hx, hv⟩ := bind_eq_ok.mp hvalid
    have hadmitted : A p v := hI.checked s.graph id p x v hs hx hv
    refine (hbefore s hs).append ?_
    split
    · exact lawful_empty
    · next heq =>
      rw [heq] at hs₁
      split
      · exact lawful_empty
      · next g hstore =>
        obtain ⟨x, -, hg⟩ := bind_eq_ok.mp hstore
        have hg : I g := by
          rw [← pure_eq_ok.mp hg]
          exact hI.stored _ id p v hadmitted hs₁
        refine Tale.Lawful.append (fun h hh => ?_) (hI.observes_notify htold htell .after _ _ hg)
        rw [List.mem_singleton.mp hh]
        exact hadmitted

theorem observes_change (hI : Lasting I A) (depth : Nat) (stack : List Frame) (id : NodeId)
    (p : PropertyId) (v : PropertyValue) : Observes I A (changeTale depth stack id p v) := by
  induction depth generalizing stack id p v with
  | zero => exact fun _ _ => lawful_empty
  | succ depth ih =>
    refine hI.observes_setWith (fun frame event o => ?_) (fun frame event o => ?_) stack id p v
    · rw [← Observer.run_plan]
      exact toldBy_plan (toldBy_change depth (frame :: stack)) (o.plan event)
    · exact hI.observes_plan (toldBy_change depth (frame :: stack)) (ih (frame :: stack))
        (o.plan event)

theorem observes_step (hI : Lasting I A) (step : Step) : Observes I A step.tale :=
  hI.observes_plan toldBy_set (fun id p v s hs => hI.observes_change _ [] id p v s hs) step.plan

theorem lawful_tale (hI : Lasting I A) {s : Session} (hs : I s.graph) (steps : List Step) :
    (s.tale steps).Lawful A := by
  induction steps generalizing s with
  | nil => exact lawful_empty
  | cons step rest ih =>
    refine (hI.observes_step step s hs).append (ih ?_)
    rw [graph_step]
    exact hI.replay (hI.observes_step step s hs) hs

/-- **What lasts holds throughout a session.** -/
theorem course (hI : Lasting I A) {s : Session} (hs : I s.graph) {steps : List Step} {g : Graph}
    (hg : s.Course steps g) : I g := by
  obtain ⟨hs', hbegin, rfl⟩ := hg
  exact hI.replay (fun h hh => hI.lawful_tale hs steps h (hbegin.subset hh)) hs

end Lasting

end Lasting

end SpatialAudio
