import SpatialAudio.Proofs.Fates
import SpatialAudio.Proofs.Invocation

/-!
# Proofs/Attendance — a panner is marked whenever its direction changes

A panner for headphones observes its azimuth and its elevation: when one of them is stored it is
marked.  `Attended` is the grammar of histories in which this works: a direction that is stored is
followed at once by the mark, and marks come from nothing else.

The observer that marks a panner is the first in its list, and commands can only register others
behind it.  But while the observers of a property are at work their list is taken out, and a value
that is stored then finds nobody (`Proofs/Invocation`).  So the invariant `Watch` says where the
observer is to be found, except on the properties that are **busy**.  It is carried through all that
happens below a stack of observers at work (`Follows`), by induction on the depth.

Two conditions on a session come in (`Obedient`): no direction is stored while observers of it are at
work, and nobody marks the panner himself.  What is done on demand, and not by the observer, is told
apart by a second tale, which passes over that observer in silence (`Session.bidden`).
-/

namespace SpatialAudio

open SpatialAudio.Graph

variable {g g' : Graph} {x y id : NodeId} {n n' : Node} {hs ks : List Happening}

/-! ## Histories -/

/-- All graphs that happenings pass through. -/
def Throughout (P : Graph → Prop) (g : Graph) (hs : List Happening) : Prop :=
  ∀ pre, pre <+: hs → P (replay g pre)

section Throughout

variable {P : Graph → Prop} {k : Happening}

theorem throughout_nil : Throughout P g [] ↔ P g := by
  refine ⟨fun h => h [] List.prefix_rfl, fun h pre hpre => ?_⟩
  obtain rfl := List.prefix_nil.mp hpre
  exact h

theorem throughout_cons : Throughout P g (k :: ks) ↔ P g ∧ Throughout P (k.after g) ks := by
  refine ⟨fun h => ⟨h [] List.nil_prefix, fun pre hpre => ?_⟩, fun ⟨hg, h⟩ pre hpre => ?_⟩
  · exact h (k :: pre) (List.cons_prefix_cons.mpr ⟨rfl, hpre⟩)
  · rcases List.prefix_cons_iff.mp hpre with rfl | ⟨rest, rfl, hrest⟩
    · exact hg
    · exact h rest hrest

theorem Throughout.start (h : Throughout P g hs) : P g := h [] List.nil_prefix

theorem Throughout.left (h : Throughout P g (hs ++ ks)) : Throughout P g hs :=
  fun pre hpre => h pre (hpre.trans (List.prefix_append _ _))

theorem Throughout.right (h : Throughout P g (hs ++ ks)) : Throughout P (replay g hs) ks := by
  intro pre hpre
  rw [← replay_append]
  exact h (hs ++ pre) ((List.prefix_append_right_inj _).mpr hpre)

instance decidableThroughout [DecidablePred P] : ∀ g hs, Decidable (Throughout P g hs)
  | _, [] => decidable_of_iff _ throughout_nil.symm
  | g, k :: ks =>
    have := decidableThroughout (k.after g) ks
    decidable_of_iff _ throughout_cons.symm

end Throughout

/-- The node is there. -/
abbrev Alive (x : NodeId) (g : Graph) : Prop := g.contains x = true

/-! ## Directions and marks -/

/-- A property that is part of a direction. -/
def PropertyId.isDirection (p : PropertyId) : Bool := p = .azimuth || p = .elevation

/-- Whether a deed marks a panner. -/
def Deed.marks {α : Type} (x : NodeId) : Deed α → Bool
  | .markRecompute id => id = x
  | _ => false

/-- Whether a happening marks a panner. -/
def Happening.marks (x : NodeId) : Happening → Bool
  | deed d => d.marks x
  | _ => false

/-- Whether a happening stores a direction of a panner. -/
def Happening.turns (x : NodeId) : Happening → Bool
  | stored id p _ => id = x && p.isDirection
  | _ => false

/-- As long as the panner is there, a direction that is stored is followed by a mark, and nothing
else is. -/
inductive Attended (x : NodeId) : Graph → List Happening → Prop
  | nil (g : Graph) : Attended x g []
  | gone {g : Graph} (hs : List Happening) (h : ¬ Alive x g) : Attended x g hs
  | other {g : Graph} {k : Happening} {hs : List Happening} (hturns : k.turns x = false)
      (hmarks : k.marks x = false) (h : Attended x (k.after g) hs) : Attended x g (k :: hs)
  | turned {g : Graph} {p : PropertyId} {v : PropertyValue} {hs : List Happening}
      (hp : p.isDirection = true)
      (h : Attended x (replay g [.stored x p v, .taken .after x p, .deed (.markRecompute x)]) hs) :
      Attended x g (.stored x p v :: .taken .after x p :: .deed (.markRecompute x) :: hs)

theorem contains_modifyProperty (g : Graph) (id : NodeId) (p : PropertyId)
    (f : Property → Property) : (g.modifyProperty id p f).contains x = g.contains x := by
  rw [Bool.eq_iff_iff, contains_iff, contains_iff]
  constructor
  · rintro ⟨n', hn'⟩
    obtain ⟨n, hn, -⟩ := (alike_modifyProperty g id p f).node_back hn'
    exact ⟨n, hn⟩
  · rintro ⟨n, hn⟩
    obtain ⟨n', hn', -⟩ := (alike_modifyProperty g id p f).node_forth hn
    exact ⟨n', hn'⟩

/-- Attended histories can be put together; once the panner is gone, anything may follow. -/
theorem Attended.append (h : Attended x g hs)
    (h' : Throughout (Alive x) g hs → Attended x (replay g hs) ks) : Attended x g (hs ++ ks) := by
  induction h with
  | nil g =>
    by_cases halive : Alive x g
    · exact h' (throughout_nil.mpr halive)
    · exact .gone _ halive
  | gone _ hgone => exact .gone _ hgone
  | @other g k hs hturns hmarks _ ih =>
    by_cases halive : Alive x g
    · exact .other hturns hmarks (ih fun hlives => h' (throughout_cons.mpr ⟨halive, hlives⟩))
    · exact .gone _ halive
  | @turned g p v hs hp _ ih =>
    by_cases halive : Alive x g
    · refine .turned hp (ih fun hlives => h' ?_)
      have hstored : Alive x (g.modifyProperty x p (·.store v)) :=
        (contains_modifyProperty g x p _).trans halive
      simp only [throughout_cons]
      exact ⟨halive, hstored, (contains_modifyProperty _ x p _).trans hstored, hlives⟩
    · exact .gone _ halive

/-! ## Where the observer is to be found -/

/-- Whether the list of a phase of a property of the panner has the observer that marks it. -/
def expected (busy : PropertyId → Bool) (phase : Phase) (p : PropertyId) : Bool :=
  phase = .after && p.isDirection && !busy p

/-- The observer stands in front, and nowhere else; or nowhere at all. -/
def Placed : (expected : Bool) → List Observer → Prop
  | true, os => ∃ rest, os = .markRecompute :: rest ∧ Observer.markRecompute ∉ rest
  | false, os => Observer.markRecompute ∉ os

theorem Placed.append {b : Bool} {os added : List Observer} (h : Placed b os)
    (hadded : Observer.markRecompute ∉ added) : Placed b (os ++ added) := by
  cases b with
  | true =>
    obtain ⟨rest, rfl, hrest⟩ := h
    exact ⟨rest ++ added, rfl, by simp [hrest, hadded]⟩
  | false => exact List.not_mem_append h hadded

/-- The observers of a node are in their places. -/
def Node.Watched (busy : PropertyId → Bool) (n : Node) : Prop :=
  ∀ phase p os, n.properties.observers? phase p = some os → Placed (expected busy phase p) os

/-- The observers of the panner are in their places, if it is there. -/
structure Watch (x : NodeId) (busy : PropertyId → Bool) (g : Graph) : Prop where
  sound : g.Sound
  placed : ∀ n, g.node x = .ok n → n.Watched busy

/-- Whether a deed registers the observer on the panner. -/
def Deed.endows {α : Type} (x : NodeId) : Deed α → Bool
  | .observe _ id _ .markRecompute => id = x
  | _ => false

section Watch

variable {busy : PropertyId → Bool} {phase : Phase} {p q : PropertyId}

theorem Node.Watched.of_frame (h : n.Watched busy)
    (hframe : n'.properties.frame = n.properties.frame) : n'.Watched busy := by
  intro phase p os hos
  rw [Properties.observers?_of_frame hframe] at hos
  exact h phase p os hos

theorem Node.observers?_withObservers (n : Node) (phase phase' : Phase) (p q : PropertyId)
    (f : List Observer → List Observer) :
    (n.withObservers phase p f).properties.observers? phase' q
      = if p = q ∧ phase = phase' then (n.properties.observers? phase' q).map f
        else n.properties.observers? phase' q := Properties.observers?_modify _ _ _ _ _ _

theorem Fate.frame (h : Fate g id x n n') : n'.properties.frame = n.properties.frame := by
  cases h with
  | refused _ h => rw [h.properties]
  | turn _ _ h hturn => rw [hturn.properties, Properties.frame_clearModified, h.properties]
  | around _ _ _ h =>
    subst h
    exact Properties.frame_clearModified _
  | beside _ _ _ h => rw [h]

theorem Deed.Touches.watched {α : Type} {d : Deed α} (h : d.Touches g x n n')
    (hd : d.endows x = false) (hn : n.Watched busy) : n'.Watched busy := by
  cases d with
  | arrange id layout =>
    obtain ⟨-, rfl⟩ := h
    exact hn.of_frame (congrArg Properties.frame (rearrange_properties layout n))
  | observe phase id p o =>
    obtain ⟨rfl, rfl⟩ := h
    intro phase' q os hos
    rw [n.observers?_withObservers] at hos
    split at hos
    · obtain ⟨listed, hlisted, rfl⟩ := Option.map_eq_some_iff.mp hos
      refine (hn phase' q listed hlisted).append fun hmem => ?_
      obtain rfl := List.mem_singleton.mp hmem
      simp [Deed.endows] at hd
    · exact hn phase' q os hos
  | recomputeMap id => exact hn.of_frame (congrArg Properties.frame h.2.1)
  | markRecompute id =>
    obtain ⟨-, q, -, rfl⟩ := h
    exact hn
  | adopt id strategy =>
    obtain ⟨-, m, -, rfl⟩ := h
    exact hn
  | pull id => exact hn.of_frame h.2.frame
  | _ => exact h.elim

/-- A deed leaves the observer in its place. -/
theorem Watch.deed {α : Type} (h : Watch x busy g) {d : Deed α} (hd : d.endows x = false)
    (halive : Alive x g) : Watch x busy (d.after g) := by
  refine ⟨h.sound.moved (d.moved g), fun n' hn' => ?_⟩
  obtain ⟨n, hn⟩ := contains_iff.mp halive
  rcases Happening.same_or_touches h.sound (.deed d) hn hn' with rfl | htouched
  · exact h.placed _ hn
  · exact Deed.Touches.watched htouched hd (h.placed n hn)

theorem Watch.stored (h : Watch x busy g) (id : NodeId) (p : PropertyId) (v : PropertyValue) :
    Watch x busy (g.modifyProperty id p (·.store v)) := by
  refine ⟨h.sound.happening (.stored id p v), fun n' hn' => ?_⟩
  obtain ⟨n, hn, rfl | ⟨-, rfl⟩⟩ := h.sound.stems_modifyProperty id p _ hn'
  · exact h.placed _ hn
  · exact (h.placed n hn).of_frame (Properties.frame_store _ _ _)

/-- A property is busy while its observers are at work. -/
def occupied (busy : PropertyId → Bool) (x : NodeId) (phase : Phase) (id : NodeId)
    (p : PropertyId) : PropertyId → Bool := fun q => phase = .after && id = x && p = q || busy q

theorem expected_occupied (busy : PropertyId → Bool) (x : NodeId) (phase phase' : Phase)
    (id : NodeId) (p q : PropertyId) :
    expected (occupied busy x phase id p) phase' q =
      if id = x ∧ p = q ∧ phase = phase' then false else expected busy phase' q := by
  cases phase <;> cases phase' <;> by_cases hid : id = x <;> by_cases hp : p = q <;>
    simp [expected, occupied, hid, hp]

/-- Other observers for one list of one node. -/
theorem Watch.observers {busy' : PropertyId → Bool} (h : Watch x busy g) (phase : Phase)
    (id : NodeId) (p : PropertyId) (f : List Observer → List Observer)
    (hf : ∀ phase' q os, Placed (expected busy phase' q) os → Placed (expected busy' phase' q)
      (if id = x ∧ p = q ∧ phase = phase' then f os else os)) :
    Watch x busy'
      (g.modifyProperty id p fun y => y.setObservers phase (f (y.observers phase))) := by
  refine ⟨h.sound.move (.property g id p _), fun n' hn' phase' q os hos => ?_⟩
  by_cases hid : id = x
  · obtain ⟨n, hn⟩ : ∃ n, g.node x = .ok n := by
      obtain ⟨n, hn, -⟩ := (alike_modifyProperty g id p _).node_back hn'
      exact ⟨n, hn⟩
    subst hid
    rw [modifyProperty_of_node hn, node_modifyAt _ hn, if_pos rfl] at hn'
    cases hn'
    rw [Properties.observers?_modify] at hos
    have hplaced := hf phase' q
    split at hos
    · next hmatch =>
      obtain ⟨listed, hlisted, rfl⟩ := Option.map_eq_some_iff.mp hos
      simpa [hmatch] using hplaced listed (h.placed n hn phase' q listed hlisted)
    · next hmatch => simpa [hmatch] using hplaced os (h.placed n hn phase' q os hos)
  · obtain ⟨n, hn, rfl | ⟨hx, -⟩⟩ := h.sound.stems_modifyProperty id p _ hn'
    · simpa [hid] using hf phase' q os (h.placed _ hn phase' q os hos)
    · exact absurd hx hid

/-- While observers are at work their list is empty. -/
theorem Watch.taken (h : Watch x busy g) (phase : Phase) (id : NodeId) (p : PropertyId) :
    Watch x (occupied busy x phase id p) (g.takeObservers phase id p).2 := by
  refine h.observers phase id p (fun _ => []) fun phase' q os hos => ?_
  rw [expected_occupied]
  split
  · exact List.not_mem_nil
  · exact hos

/-- They are put back in front of those that were registered in the meantime. -/
theorem Watch.restored {os : List Observer} (h : Watch x (occupied busy x phase id p) g)
    (hos : id = x → Placed (expected busy phase p) os) :
    Watch x busy (g.restoreObservers phase id p os) := by
  refine h.observers phase id p (os ++ ·) fun phase' q listed hlisted => ?_
  rw [expected_occupied] at hlisted
  split
  · next hmatch =>
    obtain ⟨hid, rfl, rfl⟩ := hmatch
    rw [if_pos ⟨hid, rfl, rfl⟩] at hlisted
    exact (hos hid).append hlisted
  · next hmatch => rwa [if_neg hmatch] at hlisted

/-- What is taken out is in its place. -/
theorem Watch.listed (h : Watch x busy g) {y : Property} (hy : g.property x p = .ok y)
    (phase : Phase) : Placed (expected busy phase p) (g.listed phase x p) := by
  obtain ⟨n, hn, hget⟩ := property_eq_ok.mp hy
  have hos : n.properties.observers? phase p = some (y.observers phase) :=
    congrArg (Option.map _) hget
  rw [listed_of_node hn, hos]
  exact h.placed n hn phase p _ hos

end Watch

/-! ## What is done on demand -/

/-- As `changeTale`, but observers that mark a panner are passed over in silence. -/
def biddenChange : (depth : Nat) → (stack : List Frame) → Teller
  | 0, _ => fun _ _ _ _ => .empty
  | depth + 1, stack =>
    setTale (react (change depth)) (fun frame event o =>
      match o with
      | .markRecompute => fun _ => .empty
      | o => (o.plan event).tale (change depth) (biddenChange depth (frame :: stack))) stack

/-- As `Session.setTale`, without the observers that mark a panner. -/
def Session.biddenSet : Teller := fun id p v s =>
  biddenChange (s.graph.observerCount + 1 + spareDepth) [] id p v s

/-- What is done on demand in some steps: all that happens but what observers do to mark panners. -/
def Session.bidden (s : Session) : List Step → Tale
  | [] => .empty
  | step :: rest => step.plan.tale Session.set biddenSet s ++ (s.step step).2.bidden rest

/-- No direction of the panner is stored while observers of it are at work, and the panner is not
marked on demand. -/
structure Obedient (x : NodeId) (told bidden : Tale) : Prop where
  calls : ∀ c ∈ told.calls, c.node = x → c.property.isDirection = true → c.underWay = []
  bidden : ∀ k ∈ bidden.happenings, k.marks x = false

theorem Obedient.left {t t' b b' : Tale} (h : Obedient x (t ++ t') (b ++ b')) : Obedient x t b :=
  ⟨fun c hc => h.calls c (List.mem_append_left _ hc),
    fun k hk => h.bidden k (List.mem_append_left _ hk)⟩

theorem Obedient.right {t t' b b' : Tale} (h : Obedient x (t ++ t') (b ++ b')) :
    Obedient x t' b' :=
  ⟨fun c hc => h.calls c (List.mem_append_right _ hc),
    fun k hk => h.bidden k (List.mem_append_right _ hk)⟩

/-! ## Plans that bring no such observer -/

/-- What a deed may give as long as `x` is there: a node that it makes is another. -/
def Deed.GivesOther {α : Type} (x : NodeId) : Deed α → Except Failure α → Prop
  | .associate _ _, .ok id => id ≠ x
  | _, _ => True

/-- No deed of the plan registers an observer that marks `x`. -/
def Plan.Modest {α : Type} (x : NodeId) : Plan α → Prop
  | done _ => True
  | look next => ∀ s, (next s).Modest x
  | note _ next => next.Modest x
  | deed d next => d.endows x = false ∧ ∀ r, d.GivesOther x r → (next r).Modest x
  | set _ _ _ next => ∀ r, (next r).Modest x

section Modest

open Plan

variable {α β : Type}

theorem Deed.givesOther (h : g.Sound) (halive : Alive x g) (d : Deed α) :
    d.GivesOther x (d.run.run g).1 := by
  cases d with
  | associate kind layout =>
    rw [Deed.run]
    rcases associate_cases h kind layout with ⟨g', hrun, hw⟩ | ⟨e, g', hrun, -⟩
    · rw [hrun]
      rintro rfl
      obtain ⟨n, hn⟩ := contains_iff.mp halive
      exact h.arena.node_nextHandle n hn
    · rw [hrun]
      exact trivial
  | _ => exact trivial

theorem modest_pure (a : α) : (pure a : Plan α).Modest x := trivial

theorem Plan.Modest.bind {plan : Plan α} {f : α → Plan β} (h : plan.Modest x)
    (hf : ∀ a, (f a).Modest x) : (plan >>= f).Modest x := by
  change (plan.bind f).Modest x
  induction plan with
  | done r =>
    cases r with
    | ok a => exact hf a
    | error e => exact trivial
  | look next ih => exact fun s => ih s (h s)
  | note g next ih => exact ih h
  | deed d next ih => exact ⟨h.1, fun r hr => ih r (h.2 r hr)⟩
  | set id p v next ih => exact fun r => ih r (h r)

theorem Plan.Modest.attempt {plan : Plan α} (h : plan.Modest x) : plan.attempt.Modest x := by
  induction plan with
  | done r => exact trivial
  | look next ih => exact fun s => ih s (h s)
  | note g next ih => exact ih h
  | deed d next ih => exact ⟨h.1, fun r hr => ih r (h.2 r hr)⟩
  | set id p v next ih => exact fun r => ih r (h r)

theorem modest_act {d : Deed α} (h : d.endows x = false) : (act d).Modest x :=
  ⟨h, fun _ _ => trivial⟩

/-- A node that is made is not `x`. -/
theorem modest_associate (kind : NodeKind) (layout : Layout) {f : NodeId → Plan β}
    (hf : ∀ id, id ≠ x → (f id).Modest x) : (act (.associate kind layout) >>= f).Modest x := by
  refine ⟨rfl, fun r hr => ?_⟩
  cases r with
  | ok id => exact hf id hr
  | error e => exact trivial

theorem modest_assign (id : NodeId) (p : PropertyId) (v : PropertyValue) :
    (assign id p v).Modest x := fun _ => trivial

theorem modest_quiet (a : Action α) : (quiet a).Modest x := fun _ => trivial

theorem modest_standardMapPlan (id : NodeId) (channels : Nat) :
    (standardMapPlan id channels).Modest x := by
  rw [standardMapPlan]
  split
  · exact trivial
  · exact (modest_quiet _).bind fun _ => (modest_assign _ _ _).bind fun _ =>
      (modest_assign _ _ _).bind fun _ => modest_assign _ _ _

theorem modest_transitionPlan (id : NodeId) (strategy : Strategy) :
    (transitionPlan id strategy).Modest x := by
  have hlast : ∀ (m : Multipanner) (active : NodeId), (do
      let width ← quiet (.read fun g => g.outputCount active)
      act (.arrange m.output (.symmetric width))
      act (.connectInterior active 0 m.output 0)
      act (.adopt id strategy) : Plan Unit).Modest x := fun m active =>
    (modest_quiet _).bind fun _ => (modest_act rfl).bind fun _ =>
      (modest_act rfl).bind fun _ => modest_act rfl
  refine (modest_quiet _).bind fun m => (modest_act rfl).bind fun _ =>
    (modest_act rfl).bind fun _ => ?_
  split
  · exact (modest_pure _).bind (hlast m)
  · exact (modest_standardMapPlan _ _).bind fun _ => (modest_act rfl).bind fun _ =>
      (modest_pure _).bind (hlast m)

theorem Blueprint.modest_plan (b : Blueprint) : b.plan.Modest x := by
  cases b with
  | ringSink capacity channels => exact (modest_act rfl).bind fun _ => modest_pure _
  | _ => exact modest_quiet _

theorem modest_associatePlan (label : Label) (kind : NodeKind) (ring : Option Nat)
    (layout : Layout) : (associatePlan label kind ring layout).Modest x :=
  (modest_act rfl).bind fun _ => modest_quiet _

/-- Commands register scripts only. -/
theorem Command.modest_plan (c : Command) : c.plan.Modest x := by
  cases c with
  | associate label blueprint layout =>
    exact blueprint.modest_plan.bind fun _ => (modest_associatePlan _ _ _ _).bind fun _ => modest_pure _
  | connect source outputSlot target inputSlot =>
    exact (modest_quiet _).bind fun _ => (modest_quiet _).bind fun _ =>
      (modest_act rfl).bind fun _ => modest_pure _
  | set label p v =>
    exact (modest_quiet _).bind fun _ => (modest_assign _ _ _).bind fun _ => modest_pure _
  | reset label p =>
    exact (modest_quiet _).bind fun _ => (modest_quiet _).bind fun _ =>
      (modest_assign _ _ _).bind fun _ => modest_pure _
  | edit label change =>
    refine (modest_quiet _).bind fun _ => (modest_quiet _).bind fun edited =>
      (modest_act rfl).bind fun _ => ?_
    cases edited.2 <;> exact modest_pure _
  | standardMap label channels =>
    exact (modest_quiet _).bind fun _ => (modest_standardMapPlan _ _).bind fun _ => modest_pure _
  | disconnect | remove | process | recomputeMap | markRecompute | observe =>
    exact (modest_quiet _).bind fun _ => (modest_act rfl).bind fun _ => modest_pure _
  | _ => exact modest_quiet _

theorem modest_stepsPlan (propagate : Bool) (steps : List Command) :
    (stepsPlan propagate steps).Modest x := by
  induction steps with
  | nil => exact trivial
  | cons c rest ih =>
    refine c.modest_plan.attempt.bind fun outcome => ?_
    match outcome with
    | .ok answer => exact (modest_quiet _).bind fun _ => ih
    | .error (.refused e) =>
      refine (modest_quiet _).bind fun _ => ?_
      cases propagate with
      | true => exact trivial
      | false => exact ih
    | .error (.aborted a) => exact trivial

theorem Observer.modest_plan (event : Event) (o : Observer) : (o.plan event).Modest x := by
  cases o with
  | markRecompute => exact modest_act rfl
  | forwardToPanners =>
    exact (modest_quiet _).bind fun _ => (modest_quiet _).bind fun _ =>
      (modest_assign _ _ _).bind fun _ => modest_assign _ _ _
  | forwardToOutput =>
    exact (modest_quiet _).bind fun _ => (modest_quiet _).bind fun _ => modest_assign _ _ _
  | admitStrategy => exact modest_quiet _
  | applyStrategy => exact (modest_quiet _).bind fun _ => modest_transitionPlan _ _
  | script s => exact (modest_quiet _).bind fun _ => modest_stepsPlan _ _

theorem modest_transactPlan (commands : List Command) (answers : List Answer) :
    (transactPlan commands answers).Modest x := by
  induction commands generalizing answers with
  | nil => exact trivial
  | cons c rest ih =>
    refine c.modest_plan.attempt.bind fun outcome => ?_
    match outcome with
    | .ok a => exact ih _
    | .error (.refused e) => exact modest_pure _
    | .error (.aborted a) => exact trivial

theorem modest_pullsPlan (id : NodeId) (times : Nat) : (pullsPlan id times).Modest x := by
  induction times with
  | zero => exact modest_pure _
  | succ times ih => exact (modest_act rfl).bind fun _ => ih

/-- A panner that is made is marked by its own observers, and only those. -/
theorem Creation.modest_plan (label : Label) (creation : Creation) :
    (creation.plan label).Modest x := by
  cases creation with
  | samplePlayer samples => exact fun s => modest_associatePlan _ _ _ _
  | amplitudePanner =>
    exact (modest_act rfl).bind fun _ => (modest_act rfl).bind fun _ =>
      (modest_quiet _).bind fun _ => modest_pure _
  | hrtfPanner data =>
    refine (modest_quiet _).bind fun _ => (modest_quiet _).bind fun kind =>
      modest_associate kind _ fun id hid => ?_
    have hendows : ∀ p, (Deed.observe .after id p .markRecompute).endows x = false :=
      fun p => decide_eq_false hid
    exact (modest_act (hendows _)).bind fun _ => (modest_act (hendows _)).bind fun _ =>
      (modest_quiet _).bind fun _ => modest_pure _
  | multipanner data =>
    exact (modest_quiet _).bind fun _ => (modest_act rfl).bind fun _ =>
      (modest_transitionPlan _ _).bind fun _ => (modest_quiet _).bind fun _ => modest_pure _
  | ringSink channels blocks => exact (modest_act rfl).bind fun _ => modest_associatePlan _ _ _ _
  | sine => exact modest_associatePlan label (.sine ⟨0⟩) none .source
  | gain channels => exact modest_associatePlan label .gain none (.symmetric channels)

theorem Step.modest_plan (step : Step) : step.plan.Modest x := by
  cases step with
  | command c => exact c.modest_plan.bind fun _ => modest_pure _
  | create label creation => exact (creation.modest_plan label).bind fun _ => modest_pure _
  | render label out probe =>
    exact (modest_quiet _).bind fun _ => (modest_quiet _).bind fun _ =>
      (modest_pullsPlan _ _).bind fun _ => (modest_quiet _).bind fun _ => modest_pure _
  | process label times =>
    exact (modest_quiet _).bind fun _ => (modest_pullsPlan _ _).bind fun _ => modest_pure _
  | takeFaults => exact fun s => (modest_act rfl).bind fun _ => modest_pure _
  | drain label limit probe =>
    exact (modest_quiet _).bind fun _ s => (modest_act rfl).bind fun _ => modest_pure _
  | transaction commands => exact modest_transactPlan commands []
  | _ => exact modest_quiet _

end Modest

/-! ## Tales -/

/-- Where the observer is found with `busy`, the history is attended, and the observer is found with
`busy'` in the end, if the panner is there throughout. -/
def Follows (x : NodeId) (busy busy' : PropertyId → Bool) (g : Graph) (hs : List Happening) : Prop :=
  Watch x busy g → Attended x g hs ∧ (Throughout (Alive x) g hs → Watch x busy' (replay g hs))

section Follows

variable {busy busy' busy'' : PropertyId → Bool} {phase : Phase} {p : PropertyId}
  {v : PropertyValue}

theorem follows_nil (g : Graph) : Follows x busy busy g [] := fun h => ⟨.nil g, fun _ => h⟩

theorem Follows.append (h : Follows x busy busy' g hs)
    (h' : Follows x busy' busy'' (replay g hs) ks) : Follows x busy busy'' g (hs ++ ks) := by
  intro hwatch
  obtain ⟨hattended, hkeeps⟩ := h hwatch
  refine ⟨hattended.append fun hlives => (h' (hkeeps hlives)).1, fun hlives => ?_⟩
  rw [replay_append]
  exact (h' (hkeeps hlives.left)).2 hlives.right

theorem follows_of_alive (h : g.Sound → Alive x g → Follows x busy busy' g hs) :
    Follows x busy busy' g hs := by
  intro hwatch
  by_cases halive : Alive x g
  · exact h hwatch.sound halive hwatch
  · exact ⟨.gone hs halive, fun hlives => absurd hlives.start halive⟩

theorem follows_single {k : Happening} (hturns : k.turns x = false) (hmarks : k.marks x = false)
    (hk : Watch x busy g → Alive x g → Watch x busy' (k.after g)) : Follows x busy busy' g [k] :=
  fun h => ⟨.other hturns hmarks (.nil _), fun hlives => hk h hlives.start⟩

theorem follows_deed {α : Type} {d : Deed α} (hmarks : d.marks x = false)
    (hendows : d.endows x = false) : Follows x busy busy g [.deed d] :=
  follows_single rfl hmarks fun h halive => h.deed hendows halive

theorem follows_plan {α : Type} {set : Setter} {tell tellBidden : Teller}
    (htold : ∀ id p v, ToldBy (set id p v) (tell id p v))
    (htell : ∀ id p v s, Obedient x (tell id p v s) (tellBidden id p v s) →
      Follows x busy busy s.graph (tell id p v s).happenings)
    {plan : Plan α} (hmodest : plan.Modest x) (s : Session)
    (hobedient : Obedient x (plan.tale set tell s) (plan.tale set tellBidden s)) :
    Follows x busy busy s.graph (plan.tale set tell s).happenings := by
  induction plan generalizing s with
  | done r => exact follows_nil _
  | look next ih => exact ih s (hmodest s) s hobedient
  | note f next ih => exact ih hmodest _ hobedient
  | deed d next ih =>
    have hmarks : d.marks x = false := hobedient.left.bidden (.deed d) (List.mem_singleton_self _)
    refine follows_of_alive fun hsound halive => (follows_deed hmarks hmodest.1).append ?_
    exact ih _ (hmodest.2 _ (d.givesOther hsound halive)) { s with graph := d.after s.graph }
      hobedient.right
  | set id p v next ih =>
    refine (htell id p v s hobedient.left).append ?_
    rw [← htold id p v s]
    exact ih _ (hmodest _) _ hobedient.right

theorem follows_rounds {run : Observer → Action Unit}
    {tell tellBidden : List Observer → Observer → List Observer → Session → Tale}
    {Fine : Observer → Prop} (htold : ∀ through o waiting, ToldBy (run o) (tell through o waiting))
    (htell : ∀ through o waiting s, Fine o →
      Obedient x (tell through o waiting s) (tellBidden through o waiting s) →
      Follows x busy busy s.graph (tell through o waiting s).happenings)
    (through waiting : List Observer) (s : Session) (hfine : ∀ o ∈ waiting, Fine o)
    (hobedient : Obedient x (roundsTale run tell through waiting s)
      (roundsTale run tellBidden through waiting s)) :
    Follows x busy busy s.graph (roundsTale run tell through waiting s).happenings := by
  induction waiting generalizing through s with
  | nil => exact follows_nil _
  | cons o rest ih =>
    obtain ⟨ho, hrest⟩ := List.forall_mem_cons.mp hfine
    rw [roundsTale, roundsTale] at hobedient
    rw [roundsTale]
    refine (htell through o rest s ho hobedient.left).append ?_
    rw [← htold through o rest s]
    have hright := hobedient.right
    rcases hrun : (run o).run s with ⟨_ | _, s'⟩
    · exact follows_nil _
    · rw [hrun] at hright
      exact ih _ s' hrest hright

variable {run : Event → Observer → Action Unit}
  {tell tellBidden : Frame → Event → Observer → Session → Tale}

/-- What a round of observers needs to be told: those that mark belong to other panners. -/
def RoundsFollow (x : NodeId) (busy : PropertyId → Bool)
    (tell tellBidden : Frame → Event → Observer → Session → Tale) (phase : Phase) (event : Event) :
    Prop :=
  ∀ through o waiting s, (o = .markRecompute → event.node ≠ x) →
    Obedient x (tell ⟨phase, event.node, event.property, through, o, waiting⟩ event o s)
      (tellBidden ⟨phase, event.node, event.property, through, o, waiting⟩ event o s) →
    Follows x (occupied busy x phase event.node event.property)
      (occupied busy x phase event.node event.property) s.graph
      (tell ⟨phase, event.node, event.property, through, o, waiting⟩ event o s).happenings

theorem follows_restored {os : List Observer}
    (hos : id = x → Placed (expected busy phase p) os) :
    Follows x (occupied busy x phase id p) busy g [.restored phase id p os] :=
  follows_single rfl rfl fun h _ => h.restored hos

theorem follows_taken (phase : Phase) (id : NodeId) (p : PropertyId) :
    Follows x busy (occupied busy x phase id p) g [.taken phase id p] :=
  follows_single rfl rfl fun h _ => h.taken phase id p

/-- Notifying observers none of which marks the panner. -/
theorem follows_notify (htold : ∀ frame event o, ToldBy (run event o) (tell frame event o))
    {event : Event} (htell : RoundsFollow x busy tell tellBidden phase event) (s : Session)
    (hproperty : event.node = x → ∃ y, s.graph.property x event.property = .ok y)
    (hexpected : event.node = x → expected busy phase event.property = false)
    (hobedient : Obedient x (notifyTale run tell phase event s)
      (notifyTale run tellBidden phase event s)) :
    Follows x busy busy s.graph (notifyTale run tell phase event s).happenings := by
  intro hwatch
  have hplaced : event.node = x →
      Placed (expected busy phase event.property) (s.graph.listed phase event.node event.property) := by
    intro hx
    obtain ⟨y, hy⟩ := hproperty hx
    rw [hx]
    exact hwatch.listed hy phase
  have hfine : ∀ o ∈ s.graph.listed phase event.node event.property,
      o = .markRecompute → event.node ≠ x := by
    rintro o ho rfl hx
    have hplaced := hplaced hx
    rw [hexpected hx] at hplaced
    exact hplaced ho
  have hrounds := follows_rounds (fun through o waiting => htold _ event o) htell [] _
    { s with graph := (s.graph.takeObservers phase event.node event.property).2 } hfine
    hobedient.left.right
  refine ((follows_taken phase event.node event.property).append hrounds).append ?_ hwatch
  exact follows_restored hplaced

/-- After the mark it goes on as without it. -/
theorem follows_marked (hp : p.isDirection = true)
    (hmarked : Watch x busy g → Watch x busy'
      (replay g [.stored x p v, .taken .after x p, .deed (.markRecompute x)]))
    (h : Follows x busy' busy''
      (replay g [.stored x p v, .taken .after x p, .deed (.markRecompute x)]) hs) :
    Follows x busy busy'' g
      ([.stored x p v, .taken .after x p, .deed (.markRecompute x)] ++ hs) := by
  intro hwatch
  obtain ⟨hattended, hkeeps⟩ := h (hmarked hwatch)
  exact ⟨.turned hp hattended, fun hlives => hkeeps hlives.right⟩

/-- A direction is stored, and the observer is the first to hear of it. -/
theorem follows_turned (htold : ∀ frame event o, ToldBy (run event o) (tell frame event o))
    (htell : RoundsFollow x busy tell tellBidden .after ⟨x, p, none⟩)
    (hmark : ∀ frame event s,
      (tell frame event .markRecompute s).happenings = [.deed (.markRecompute event.node)])
    {s : Session} (hs : s.graph = g.modifyProperty x p (·.store v))
    {y : Property} (hy : s.graph.property x p = .ok y) (hp : p.isDirection = true)
    (hbusy : busy p = false)
    (hobedient : Obedient x (notifyTale run tell .after ⟨x, p, none⟩ s)
      (notifyTale run tellBidden .after ⟨x, p, none⟩ s)) :
    Follows x busy busy g
      (.stored x p v :: (notifyTale run tell .after ⟨x, p, none⟩ s).happenings) := by
  intro hwatch
  have hwatched : Watch x busy s.graph := hs ▸ hwatch.stored x p v
  have hexpected : expected busy .after p = true := by simp [expected, hp, hbusy]
  have hplaced := hwatched.listed hy .after
  rw [hexpected] at hplaced
  have ⟨rest, hlisted, hrest⟩ := hplaced
  have halive : Alive x s.graph := contains_iff.mpr ((property_eq_ok.mp hy).imp fun _ h => h.1)
  -- the observer is the first of those that were taken out, and the others come after the mark
  rcases htake : s.graph.takeObservers .after x p with ⟨taken, g₁⟩
  have hg₁ : (s.graph.takeObservers .after x p).2 = g₁ := by rw [htake]
  have htaken : taken = .markRecompute :: rest := by rw [← hlisted, listed, htake]
  subst htaken
  have hreplay : replay g [.stored x p v, .taken .after x p, .deed (.markRecompute x)]
      = (Deed.markRecompute x).after g₁ := by
    rw [← hg₁, hs]
    rfl
  have hmarked : Watch x (occupied busy x .after x p) ((Deed.markRecompute x).after g₁) :=
    hg₁ ▸ (hwatched.taken .after x p).deed rfl ((contains_modifyProperty _ x p _).trans halive)
  have hgraph : ((run ⟨x, p, none⟩ .markRecompute).run { s with graph := g₁ }).2.graph
      = (Deed.markRecompute x).after g₁ := by
    rw [htold ⟨.after, x, p, [], .markRecompute, rest⟩, hmark]
    rfl
  simp only [notifyTale, htake, roundsTale] at hobedient ⊢
  have hothers := hobedient.left.right.right
  simp only [Tale.happenings_append, Tale.happenings_single, hmark, List.singleton_append]
  refine follows_marked hp (fun _ => hreplay ▸ hmarked) (Follows.append ?_
    (follows_restored fun _ => by rwa [hexpected, ← hlisted])) hwatch
  rw [hreplay, ← hgraph]
  rcases hrun : (run ⟨x, p, none⟩ .markRecompute).run { s with graph := g₁ } with ⟨_ | _, s'⟩
  · exact follows_nil _
  · rw [hrun] at hothers
    refine follows_rounds (fun through o waiting => htold _ _ o) htell _ rest s' ?_ hothers
    rintro o ho rfl
    exact absurd ho hrest

/-- The properties of the panner that observers at work were told of. -/
def busyWith (x : NodeId) (stack : List Frame) (p : PropertyId) : Bool := stack.any (·.on x p)

theorem occupied_busyWith (x : NodeId) (stack : List Frame) (f : Frame) :
    occupied (busyWith x stack) x f.phase f.node f.property = busyWith x (f :: stack) := by
  funext q
  simp [occupied, busyWith, Frame.on, Bool.and_assoc]

theorem busyWith_eq_false {c : Call} (h : c.underWay = []) :
    busyWith c.node c.stack c.property = false := by
  simp only [Call.underWay, List.reverse_eq_nil_iff, List.filter_eq_nil_iff] at h
  exact List.any_eq_false.mpr h

/-- A value is stored, and its observers hear of it. -/
theorem follows_stored {stack : List Frame}
    (htold : ∀ frame event o, ToldBy (run event o) (tell frame event o))
    (htell : ∀ phase event, RoundsFollow x (busyWith x stack) tell tellBidden phase event)
    (hmark : ∀ frame event s,
      (tell frame event .markRecompute s).happenings = [.deed (.markRecompute event.node)])
    {s : Session} (hstore : g.store id p v = .ok s.graph)
    (hobedient : Obedient x
      (⟨[.stored id p v], [storedCall run stack id p v s]⟩
        ++ notifyTale run tell .after ⟨id, p, none⟩ s)
      (⟨[.stored id p v], [storedCall run stack id p v s]⟩
        ++ notifyTale run tellBidden .after ⟨id, p, none⟩ s)) :
    Follows x (busyWith x stack) (busyWith x stack) g
      (.stored id p v :: (notifyTale run tell .after ⟨id, p, none⟩ s).happenings) := by
  obtain ⟨y, hy, hgraph⟩ := bind_eq_ok.mp hstore
  have hgraph : s.graph = g.modifyProperty id p (·.store v) := (pure_eq_ok.mp hgraph).symm
  have hproperty : s.graph.property id p = .ok (y.store v) := by
    obtain ⟨n, hn, hget⟩ := property_eq_ok.mp hy
    rw [hgraph, modifyProperty_of_node hn]
    exact property_eq_ok.mpr
      ⟨_, by rw [node_modifyAt _ hn, if_pos rfl], Properties.get?_store hget v⟩
  by_cases hturns : id = x ∧ p.isDirection = true
  · obtain ⟨rfl, hp⟩ := hturns
    have hbusy : busyWith id stack p = false := busyWith_eq_false
      (hobedient.calls (storedCall run stack id p v s) List.mem_cons_self rfl hp)
    exact follows_turned htold (htell _ _) hmark hgraph hproperty hp hbusy hobedient.right
  · have hstored : Follows x (busyWith x stack) (busyWith x stack) g [.stored id p v] :=
      follows_single (by simpa [Happening.turns] using hturns) rfl fun h _ => h.stored id p v
    refine hstored.append ?_
    rw [replay_cons, Happening.after, ← hgraph]
    refine follows_notify htold (htell _ _) s (fun hx : id = x => ⟨_, hx ▸ hproperty⟩) (fun hx => ?_)
      hobedient.right
    have hp : p.isDirection = false := Bool.eq_false_iff.mpr fun hp => hturns ⟨hx, hp⟩
    simp [expected, hp]

/-- Setting a property. -/
theorem follows_setWith {stack : List Frame}
    (htold : ∀ frame event o, ToldBy (run event o) (tell frame event o))
    (htell : ∀ phase event, RoundsFollow x (busyWith x stack) tell tellBidden phase event)
    (hmark : ∀ frame event s,
      (tell frame event .markRecompute s).happenings = [.deed (.markRecompute event.node)])
    (id : NodeId) (p : PropertyId) (v : PropertyValue) (s : Session)
    (hobedient : Obedient x (setTale run tell stack id p v s)
      (setTale run tellBidden stack id p v s)) :
    Follows x (busyWith x stack) (busyWith x stack) s.graph
      (setTale run tell stack id p v s).happenings := by
  rw [setTale, setTale] at hobedient
  rw [setTale]
  cases hvalid : s.graph.property id p >>= fun y => y.validate p v with
  | error e => exact follows_nil _
  | ok _ =>
    simp only [hvalid] at hobedient
    obtain ⟨y, hy, -⟩ := bind_eq_ok.mp hvalid
    refine (follows_notify htold (htell .before ⟨id, p, some v⟩) s (fun hx => ⟨y, hx ▸ hy⟩)
      (fun _ => rfl) hobedient.left).append ?_
    have hright := hobedient.right
    rw [← toldBy_notify htold .before ⟨id, p, some v⟩ s]
    rcases hrun : (notify run .before ⟨id, p, some v⟩).run s with ⟨_ | _, s₁⟩
    · exact follows_nil _
    · rw [hrun] at hright
      dsimp only at hright ⊢
      cases hstore : s₁.graph.store id p v with
      | error e => exact follows_nil _
      | ok g =>
        rw [hstore] at hright
        exact follows_stored htold htell hmark hstore hright

theorem follows_change (depth : Nat) (stack : List Frame) (id : NodeId) (p : PropertyId)
    (v : PropertyValue) (s : Session)
    (hobedient : Obedient x (changeTale depth stack id p v s) (biddenChange depth stack id p v s)) :
    Follows x (busyWith x stack) (busyWith x stack) s.graph
      (changeTale depth stack id p v s).happenings := by
  induction depth generalizing stack id p v s with
  | zero => exact follows_nil _
  | succ depth ih =>
    refine follows_setWith (fun frame event o => ?_) (fun phase event => ?_) (fun _ _ _ => rfl)
      id p v s hobedient
    · rw [← Observer.run_plan]
      exact toldBy_plan (toldBy_change depth (frame :: stack)) (o.plan event)
    · intro through o waiting s hother hobedient
      rw [occupied_busyWith x stack ⟨phase, event.node, event.property, through, o, waiting⟩]
      cases o with
      | markRecompute =>
        exact follows_deed (decide_eq_false (hother rfl)) rfl
      | _ =>
        exact follows_plan (toldBy_change depth _) (ih _) (Observer.modest_plan event _) s hobedient

theorem follows_set (id : NodeId) (p : PropertyId) (v : PropertyValue) (s : Session)
    (hobedient : Obedient x (Session.setTale id p v s) (Session.biddenSet id p v s)) :
    Follows x (busyWith x []) (busyWith x []) s.graph (Session.setTale id p v s).happenings :=
  follows_change _ [] id p v s hobedient

theorem follows_tale (s : Session) (steps : List Step)
    (hobedient : Obedient x (s.tale steps) (s.bidden steps)) :
    Follows x (busyWith x []) (busyWith x []) s.graph (s.tale steps).happenings := by
  induction steps generalizing s with
  | nil => exact follows_nil _
  | cons step rest ih =>
    have hstep : Follows x (busyWith x []) (busyWith x []) s.graph (step.tale s).happenings :=
      follows_plan toldBy_set follows_set step.modest_plan s hobedient.left
    refine hstep.append ?_
    rw [← graph_step s step]
    exact ih _ hobedient.right

end Follows

end SpatialAudio
