import SpatialAudio.Proofs.Aborts
import SpatialAudio.Proofs.Crowd

/-!
# Proofs/Nesting — changes of properties come to an end

An observer that runs was taken out, and so were those that wait with it; a change that it makes
meets only the others.  So along a chain of changes, each made by an observer of the one before, the
crowd gets smaller with every link, whatever nodes and properties the changes are about.  A change
that is through has put its observers back, but then the chain is shorter too.

`changeOr beyond depth` is as `change depth`, with changes nested deeper left to `beyond`.  As long
as no observer registers observers, what lies beyond one change for every registered observer makes
no difference (`concur_changeOr`); so it is not reached, and no change is given up (`set_returns`).
-/

namespace SpatialAudio

open SpatialAudio.Graph Plan

/-! ## Observers that register none -/

/-- The command registers an observer. -/
def Command.registers : Command → Bool
  | .observe .. => true
  | _ => false

/-- The observer registers others, in one of its steps. -/
def Observer.registers : Observer → Bool
  | .script s => s.steps.any Command.registers
  | _ => false

/-- No deed of the plan registers observers; the plan is aborted for nesting only where setting a
property is. -/
def Plan.Frugal {α : Type} : Plan α → Prop
  | done r => Avoids (.aborted .nesting) r
  | look next => ∀ s, (next s).Frugal
  | note _ next => next.Frugal
  | deed d next => d.registers = false ∧ ∀ r, Avoids (.aborted .nesting) r → (next r).Frugal
  | set _ _ _ next => ∀ r, Avoids (.aborted .nesting) r → (next r).Frugal

section Frugal

variable {α β : Type}

theorem frugal_pure (a : α) : (pure a : Plan α).Frugal := avoids_ok a

theorem Plan.Frugal.bind {plan : Plan α} {f : α → Plan β} (h : plan.Frugal)
    (hf : ∀ a, (f a).Frugal) : (plan >>= f).Frugal := by
  change (plan.bind f).Frugal
  induction plan with
  | done r =>
    cases r with
    | ok a => exact hf a
    | error e => exact avoids_error fun he => h (congrArg Except.error he)
  | look next ih => exact fun s => ih s (h s)
  | note g next ih => exact ih h
  | deed d next ih => exact ⟨h.1, fun r hr => ih r (h.2 r hr)⟩
  | set id p v next ih => exact fun r hr => ih r (h r hr)

/-- A plan goes on with the outcome of another, which is not aborted for nesting. -/
theorem Plan.Frugal.attempt_bind {plan : Plan α} {f : Except Failure α → Plan β} (h : plan.Frugal)
    (hf : ∀ r, Avoids (.aborted .nesting) r → (f r).Frugal) : (plan.attempt >>= f).Frugal := by
  change (plan.attempt.bind f).Frugal
  induction plan with
  | done r => exact hf r h
  | look next ih => exact fun s => ih s (h s)
  | note g next ih => exact ih h
  | deed d next ih => exact ⟨h.1, fun r hr => ih r (h.2 r hr)⟩
  | set id p v next ih => exact fun r hr => ih r (h r hr)

theorem frugal_act {d : Deed α} (h : d.registers = false) : (act d).Frugal := ⟨h, fun _ hr => hr⟩

theorem frugal_assign (id : NodeId) (p : PropertyId) (v : PropertyValue) :
    (assign id p v).Frugal := fun _ hr => hr

theorem frugal_quiet {a : Action α} (h : Never (.aborted .nesting) a) : (quiet a).Frugal :=
  fun s => h s

theorem frugal_read (f : Graph → Except Error α) : (quiet (.read f)).Frugal :=
  frugal_quiet (never_read f)

theorem frugal_node (label : Label) : (quiet (.node label)).Frugal :=
  frugal_quiet (Action.never_node label)

theorem frugal_standardMapPlan (id : NodeId) (channels : Nat) :
    (standardMapPlan id channels).Frugal := by
  rw [standardMapPlan]
  split
  · exact avoids_error fun h => by cases h
  · exact (frugal_read _).bind fun _ => (frugal_assign _ _ _).bind fun _ =>
      (frugal_assign _ _ _).bind fun _ => frugal_assign _ _ _

theorem frugal_transitionPlan (id : NodeId) (strategy : Strategy) :
    (transitionPlan id strategy).Frugal := by
  have hlast : ∀ (m : Multipanner) (active : NodeId), (do
      let width ← quiet (.read fun g => g.outputCount active)
      act (.arrange m.output (.symmetric width))
      act (.connectInterior active 0 m.output 0)
      act (.adopt id strategy) : Plan Unit).Frugal := fun m active =>
    (frugal_read _).bind fun _ => (frugal_act rfl).bind fun _ =>
      (frugal_act rfl).bind fun _ => frugal_act rfl
  refine (frugal_read _).bind fun m => (frugal_act rfl).bind fun _ =>
    (frugal_act rfl).bind fun _ => ?_
  split
  · exact (frugal_pure _).bind (hlast m)
  · exact (frugal_standardMapPlan _ _).bind fun _ => (frugal_act rfl).bind fun _ =>
      (frugal_pure _).bind (hlast m)

theorem Blueprint.frugal_plan (b : Blueprint) : b.plan.Frugal := by
  cases b with
  | ringSink capacity channels => exact (frugal_act rfl).bind fun _ => frugal_pure _
  | _ => exact frugal_quiet (Blueprint.never_build _)

/-- A node that is made brings no observers. -/
theorem frugal_associatePlan (label : Label) (kind : NodeKind) (ring : Option Nat)
    (layout : Layout) : (associatePlan label kind ring layout).Frugal := by
  refine (frugal_act rfl).bind fun id => frugal_quiet ((never_modify _).bind fun _ => ?_)
  cases ring with
  | some ring => exact (never_modify _).bind fun _ => never_pure _
  | none => exact never_pure _

theorem Command.frugal_plan {c : Command} (h : c.registers = false) : c.plan.Frugal := by
  cases c with
  | associate label blueprint layout =>
    exact blueprint.frugal_plan.bind fun _ => (frugal_associatePlan _ _ _ _).bind fun _ =>
      frugal_pure _
  | connect source outputSlot target inputSlot =>
    exact (frugal_node _).bind fun _ => (frugal_node _).bind fun _ =>
      (frugal_act rfl).bind fun _ => frugal_pure _
  | set label p v =>
    exact (frugal_node _).bind fun _ => (frugal_assign _ _ _).bind fun _ => frugal_pure _
  | reset label p =>
    exact (frugal_node _).bind fun _ => (frugal_read _).bind fun _ =>
      (frugal_assign _ _ _).bind fun _ => frugal_pure _
  | edit label change =>
    refine (frugal_node _).bind fun _ => (frugal_read _).bind fun edited =>
      (frugal_act rfl).bind fun _ => ?_
    cases edited.2 <;> exact frugal_pure _
  | standardMap label channels =>
    exact (frugal_node _).bind fun _ => (frugal_standardMapPlan _ _).bind fun _ => frugal_pure _
  | observe => cases h
  | disconnect | remove | process | recomputeMap | markRecompute =>
    exact (frugal_node _).bind fun _ => (frugal_act rfl).bind fun _ => frugal_pure _
  | inspect label p query =>
    exact frugal_quiet ((Action.never_node _).bind fun _ => never_read _)
  | ask label query => exact frugal_quiet ((Action.never_node _).bind fun _ => never_read _)
  | multipanner label binding =>
    refine frugal_quiet ((Action.never_node _).bind fun _ => (never_read _).bind fun m => ?_)
    cases binding with
    | some stem =>
      exact Never.bind ((never_modify _).bind fun _ => (never_modify _).bind fun _ =>
        (never_modify _).bind fun _ => never_modify _) fun _ => never_pure _
    | none => exact never_pure _
  | summary => exact frugal_quiet (never_get.bind fun _ => never_pure _)
  | checkConsistency => exact frugal_quiet ((never_read _).bind fun _ => never_pure _)

theorem frugal_stepsPlan (propagate : Bool) {steps : List Command}
    (h : ∀ c ∈ steps, c.registers = false) : (stepsPlan propagate steps).Frugal := by
  induction steps with
  | nil => exact frugal_pure _
  | cons c rest ih =>
    obtain ⟨hc, hrest⟩ := List.forall_mem_cons.mp h
    refine (Command.frugal_plan hc).attempt_bind fun outcome houtcome => ?_
    match outcome with
    | .ok answer => exact (frugal_quiet (never_modify _)).bind fun _ => ih hrest
    | .error (.refused e) =>
      refine (frugal_quiet (never_modify _)).bind fun _ => ?_
      cases propagate with
      | true => exact avoids_error nofun
      | false => exact ih hrest
    | .error (.aborted a) => exact avoids_error fun he => houtcome (congrArg Except.error he)

/-- **An observer that registers none has a frugal plan.** -/
theorem Observer.frugal_plan {o : Observer} (h : o.registers = false) (event : Event) :
    (o.plan event).Frugal := by
  cases o with
  | markRecompute => exact frugal_act rfl
  | forwardToPanners =>
    exact (frugal_read _).bind fun _ => (frugal_read _).bind fun _ =>
      (frugal_assign _ _ _).bind fun _ => frugal_assign _ _ _
  | forwardToOutput =>
    exact (frugal_read _).bind fun _ => (frugal_read _).bind fun _ => frugal_assign _ _ _
  | admitStrategy =>
    refine frugal_quiet ?_
    rw [react]
    split
    · exact never_read _
    · exact never_pure ()
  | applyStrategy => exact (frugal_read _).bind fun _ => frugal_transitionPlan _ _
  | script s =>
    refine (frugal_quiet (s.never_announce event)).bind fun _ => frugal_stepsPlan _ fun c hc => ?_
    exact Bool.eq_false_of_not_eq_true fun htrue =>
      Bool.false_ne_true (h.symm.trans (List.any_eq_true.mpr ⟨c, hc, htrue⟩))

end Frugal

/-! ## Changes without a limit -/

/-- Sets a property as `change depth` does, with changes nested deeper left to `beyond`. -/
def changeOr (beyond : Setter) : (depth : Nat) → Setter
  | 0 => beyond
  | depth + 1 => setWith (react (changeOr beyond depth))

theorem changeOr_add (beyond : Setter) (depth further : Nat) :
    changeOr beyond (depth + further) = changeOr (changeOr beyond further) depth := by
  induction depth with
  | zero => rw [Nat.zero_add, changeOr]
  | succ depth ih => rw [Nat.add_right_comm, changeOr, changeOr, ih]

theorem change_eq (depth : Nat) :
    change depth = changeOr (fun _ _ _ => throw (.aborted .nesting)) depth := by
  induction depth with
  | zero => rfl
  | succ depth ih => rw [change, changeOr, ih]

/-! ## Doing the same -/

/-- The graph is sound, and at most the observers `C` are at hand. -/
structure Graph.Confined (C : Multiset Observer) (g : Graph) : Prop where
  sound : g.Sound
  crowd_le : g.crowd ≤ C

/-- With at most the observers `C` at hand two actions do the same.  They are not aborted for
nesting, and leave at most these observers. -/
def Concur {α : Type} (C : Multiset Observer) (a b : Action α) : Prop :=
  ∀ s, s.graph.Confined C → a.run s = b.run s ∧ Avoids (.aborted .nesting) (a.run s).1 ∧
    (a.run s).2.graph.Confined C

section Concur

variable {α : Type} {C : Multiset Observer} {set set' : Setter}

theorem concur_pure (a : α) : Concur C (pure a) (pure a) := fun _ hs => ⟨rfl, avoids_ok a, hs⟩

theorem Concur.bind {β : Type} {a b : Action α} {f f' : α → Action β} (h : Concur C a b)
    (hf : ∀ x, Concur C (f x) (f' x)) : Concur C (a >>= f) (b >>= f') := by
  intro s hs
  obtain ⟨heq, havoids, hconf⟩ := h s hs
  rw [run_bind, run_bind, ← heq]
  rcases hr : a.run s with ⟨e | x, s'⟩
  · rw [hr] at havoids hconf
    exact ⟨rfl, avoids_error fun he => havoids (congrArg Except.error he), hconf⟩
  · rw [hr] at hconf
    exact hf x s' hconf

theorem concur_forM {β : Type} {f f' : β → Action Unit} {as : List β}
    (h : ∀ a ∈ as, Concur C (f a) (f' a)) : Concur C (as.forM f) (as.forM f') := by
  induction as with
  | nil => exact concur_pure ()
  | cons a as ih =>
    obtain ⟨ha, has⟩ := List.forall_mem_cons.mp h
    exact ha.bind fun _ => ih has

/-- A frugal plan does the same for setters that do the same. -/
theorem concur_plan (hset : ∀ id p v, Concur C (set id p v) (set' id p v)) {plan : Plan α}
    (h : plan.Frugal) : Concur C (plan.run set) (plan.run set') := by
  intro s hs
  induction plan generalizing s with
  | done r =>
    rw [Plan.run, Plan.run, run_settle]
    exact ⟨rfl, h, hs⟩
  | look next ih => exact ih s (h s) s hs
  | note f next ih => exact ih h _ hs
  | deed d next ih =>
    refine ih _ (h.2 _ (d.never_nesting s.graph)) _ ⟨?_, ?_⟩
    · exact hs.sound.moved (d.moved s.graph)
    · exact (crowd_deed_le hs.sound h.1).trans hs.crowd_le
  | set id p v next ih =>
    obtain ⟨heq, havoids, hconf⟩ := hset id p v s hs
    have hrun : ∀ set : Setter, ((Plan.set id p v next).run set).run s
        = ((next ((set id p v).run s).1).run set).run ((set id p v).run s).2 := fun _ => rfl
    rw [hrun, hrun, ← heq]
    exact ih _ (h _ havoids) _ hconf

/-- **Observers meet a smaller crowd**, because they were taken out themselves. -/
theorem concur_notify {run run' : Event → Observer → Action Unit}
    (h : ∀ C' ≤ C, C'.card < C.card → ∀ event, ∀ o ∈ C,
      Concur C' (run event o) (run' event o)) (phase : Phase) (event : Event) :
    Concur C (notify run phase event) (notify run' phase event) := by
  intro s hs
  rcases htake : s.graph.takeObservers phase event.node event.property with ⟨taken, g⟩
  have hcrowd : s.graph.crowd = taken + g.crowd := by
    have := s.graph.crowd_takeObservers phase event.node event.property
    rwa [htake] at this
  have hsound : g.Sound := by
    have hg : (s.graph.takeObservers phase event.node event.property).2 = g := by rw [htake]
    exact hg ▸ hs.sound.move (.property ..)
  have hC : (taken : Multiset Observer) + g.crowd ≤ C := hcrowd ▸ hs.crowd_le
  have hrest : g.crowd ≤ C := (Multiset.le_add_left _ _).trans hC
  have hconcur : Concur g.crowd (taken.forM (run event)) (taken.forM (run' event)) := by
    refine concur_forM fun o ho => h g.crowd hrest ?_ event o ?_
    · have hcard := Multiset.card_le_card hC
      rw [Multiset.card_add, Multiset.coe_card] at hcard
      have htaken := List.length_pos_of_mem ho
      omega
    · exact Multiset.mem_of_le ((Multiset.le_add_right _ _).trans hC) ho
  obtain ⟨heq, havoids, hconf⟩ := hconcur { s with graph := g } ⟨hsound, le_refl _⟩
  rw [run_notify_eq run phase event s htake, run_notify_eq run' phase event s htake, ← heq]
  refine ⟨rfl, havoids, hconf.sound.move (.property ..), ?_⟩
  -- who is put back was taken out, and nobody came to those who stayed
  exact ((crowd_restoreObservers_le _ phase event.node event.property taken).trans
    (add_le_add_right hconf.crowd_le _)).trans hC

theorem concur_read (f : Graph → Except Error α) : Concur C (.read f) (.read f) := by
  intro s hs
  refine ⟨rfl, never_read f s, ?_⟩
  rw [Action.neutral_read f s]
  exact hs

theorem concur_setWith {run run' : Event → Observer → Action Unit}
    (h : ∀ C' ≤ C, C'.card < C.card → ∀ event, ∀ o ∈ C,
      Concur C' (run event o) (run' event o)) (id : NodeId) (p : PropertyId) (v : PropertyValue) :
    Concur C (setWith run id p v) (setWith run' id p v) := by
  have hstore : Concur C (.change fun g => g.store id p v) (.change fun g => g.store id p v) := by
    intro s hs
    refine ⟨rfl, never_onGraph (never_change _) s, ?_⟩
    rw [Action.change, run_onGraph]
    refine inv_change (I := Graph.Confined C) hs fun g hg => ?_
    obtain ⟨_, -, hg⟩ := bind_eq_ok.mp hg
    cases hg
    exact ⟨hs.sound.move (.property ..), (crowd_store_le hs.sound id p v).trans hs.crowd_le⟩
  exact (concur_read _).bind fun _ => (concur_notify h .before _).bind fun _ =>
    hstore.bind fun _ => concur_notify h .after _

/-- **With one change for each observer at hand and one more, what lies beyond makes no
difference.** -/
theorem concur_changeOr {depth : Nat} (hdepth : C.card < depth)
    (hC : ∀ o ∈ C, o.registers = false) (beyond beyond' : Setter) (id : NodeId) (p : PropertyId)
    (v : PropertyValue) :
    Concur C (changeOr beyond depth id p v) (changeOr beyond' depth id p v) := by
  induction depth generalizing C id p v with
  | zero => exact absurd hdepth (Nat.not_lt_zero _)
  | succ depth ih =>
    refine concur_setWith (fun C' hC' hcard event o ho => ?_) id p v
    rw [← Observer.run_plan, ← Observer.run_plan]
    refine concur_plan (ih ?_ fun o ho => ?_) (Observer.frugal_plan (hC o ho) event)
    · exact Nat.lt_of_lt_of_le hcard (Nat.le_of_lt_succ hdepth)
    · exact hC o (Multiset.mem_of_le hC' ho)

end Concur

/-- **Setting a property comes to an end, with changes nested no deeper than one more than the
number of registered observers.**  In every reachable state in which no registered observer
registers others, setting any property of any node is not given up for nesting; and it is the same
whatever would be done by changes nested deeper than that.  So there are none: an abort is never
caught, and a change that is made could abort.

Observers may do everything else that commands do, and set each other's properties in circles: while
one is at work it is taken out, and nobody else can call it.  Commands make panners only without the
observers that a panner has when it is created as such. -/
theorem Session.set_returns {s : Session} (hs : s.Reachable)
    (hobs : ∀ o ∈ s.graph.observers, o.registers = false) (id : NodeId) (p : PropertyId)
    (v : PropertyValue) :
    ((Session.set id p v).run s).1 ≠ .error (.aborted .nesting) ∧
    ∀ beyond : Setter, (changeOr beyond (s.graph.observerCount + 1) id p v).run s
      = (Session.set id p v).run s := by
  have hcrowd := s.graph.crowd_le_observers
  have hcard : s.graph.crowd.card < s.graph.observerCount + 1 := by
    rw [← s.graph.length_observers, ← Multiset.coe_card]
    exact Nat.lt_succ_of_le (Multiset.card_le_card hcrowd)
  have hconcur := fun beyond beyond' => concur_changeOr hcard
    (fun o ho => hobs o (Multiset.mem_of_le hcrowd ho)) beyond beyond' id p v s
    ⟨hs.sound, le_refl _⟩
  -- the spare depth lies beyond
  have hset : (Session.set id p v).run s
      = (changeOr (changeOr (fun _ _ _ => throw (.aborted .nesting)) spareDepth)
          (s.graph.observerCount + 1) id p v).run s := by
    rw [Session.set, run_bind_ok (run_get s), change_eq, changeOr_add]
  rw [hset]
  exact ⟨(hconcur _ (fun _ _ _ => pure ())).2.1, fun beyond => (hconcur _ _).1⟩

/-- Two gains whose observers set each other's properties in a circle, and the property they
observe; one of them pulls a block and removes a third gain. -/
def entangled : Session :=
  let s := ((Session.new 44100 64).step (.create "a" (.gain 1))).2
  let s := (s.step (.create "b" (.gain 1))).2
  let s := (s.step (.create "c" (.gain 1))).2
  let s := (s.step (.command (.observe .after "a" .suspended "to b" none true
    [.set "b" .suspended (.int 1), .set "a" .suspended (.int 0)]))).2
  let s := (s.step (.command (.observe .before "a" .suspended "to b before" none true
    [.set "b" .suspended (.int 0)]))).2
  (s.step (.command (.observe .after "b" .suspended "to a" none false
    [.set "a" .suspended (.int 1), .process "a", .remove "c"]))).2

theorem reachable_entangled : entangled.Reachable :=
  .step (.step (.step (.step (.step (.step (.new 44100 64) _) _) _) _) _) _

/-- Here the call succeeds, and the third gain is gone: all three observers ran. -/
theorem Session.set_returns_entangled : entangled.graph.observerCount = 3 ∧
    (∀ o ∈ entangled.graph.observers, o.registers = false) ∧
    ((Session.set ⟨0, 0⟩ .suspended (.int 1)).run entangled).1.isOk = true ∧
    ((Session.set ⟨0, 0⟩ .suspended (.int 1)).run entangled).2.graph.contains ⟨2, 0⟩ = false ∧
    ((Session.set ⟨0, 0⟩ .suspended (.int 1)).run entangled).1 ≠ .error (.aborted .nesting) ∧
    (changeOr (fun _ _ _ => throw (.aborted .nesting)) 4 ⟨0, 0⟩ .suspended (.int 1)).run entangled
      = (Session.set ⟨0, 0⟩ .suspended (.int 1)).run entangled := by
  have hcount : entangled.graph.observerCount = 3 := by decide +kernel
  have hobs : ∀ o ∈ entangled.graph.observers, o.registers = false := by decide +kernel
  have hreturns := Session.set_returns reachable_entangled hobs ⟨0, 0⟩ .suspended (.int 1)
  rw [hcount] at hreturns
  exact ⟨hcount, hobs, by decide +kernel, by decide +kernel, hreturns.1, hreturns.2 _⟩

end SpatialAudio
