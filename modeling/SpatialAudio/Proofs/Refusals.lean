import SpatialAudio.Proofs.Books
import SpatialAudio.Proofs.Maps

/-!
# Proofs/Refusals — what is refused leaves a graph as it was

Connections, removals and edits of layouts are done **all or nothing** (`Command.allOrNothing`).  A
value is set in several steps, with observers in between; what the checks before the first of them
refuse (`Command.check`) does not happen at all (`Command.idle_of_check`), and where nobody observes
nothing else is refused (`Command.unchanged_of_unobserved`).  Observers may still refuse a value that
others took note of, or remove the node that it is for.

Two operations are refused half way.  A map that cannot be rebuilt leaves its panner without one
that waits (`Graph.Stayed`).  A node that cannot have its layout leaves the slot that it was
in one generation older (`Graph.Spent`).
-/

namespace SpatialAudio

open SpatialAudio.Graph

/-! ## All or nothing -/

section AllOrNothing

variable {ε σ α β : Type} {m : ExceptT ε (StateM σ) α} {f : α → ExceptT ε (StateM σ) β}

/-- The operation leaves the state alone. -/
def Inert (m : ExceptT ε (StateM σ) α) : Prop := ∀ s, (m.run s).2 = s

/-- The operation leaves the state alone if it fails. -/
def AllOrNothing (m : ExceptT ε (StateM σ) α) : Prop :=
  ∀ s e s', m.run s = (.error e, s') → s' = s

theorem Inert.bind (hm : Inert m) (hf : ∀ a, AllOrNothing (f a)) : AllOrNothing (m >>= f) := by
  intro s e s' hrun
  have hs := hm s
  rw [run_bind] at hrun
  rcases hr : m.run s with ⟨_ | a, s₁⟩
  · rw [hr] at hrun hs
    cases hrun
    exact hs
  · rw [hr] at hrun hs
    subst hs
    exact hf a _ e s' hrun

/-- Nothing fails behind the operation. -/
theorem AllOrNothing.bind_pure (hm : AllOrNothing m) (b : α → β) :
    AllOrNothing (m >>= fun a => pure (b a)) := by
  intro s e s' hrun
  rw [run_bind] at hrun
  rcases hr : m.run s with ⟨_ | a, s₁⟩
  · rw [hr] at hrun
    cases hrun
    exact hm s e _ hr
  · rw [hr] at hrun
    cases hrun

end AllOrNothing

theorem inert_node (label : Label) : Inert (Action.node label) := by
  intro s
  rw [Action.node, Action.named, run_bind_ok (run_get s)]
  cases s.nodes.get? label <;> rfl

theorem inert_read {α : Type} (f : Graph → Except Error α) : Inert (Action.read f) := by
  intro s
  rw [Action.read, run_onGraph, run_read]

theorem allOrNothing_update (f : Graph → Except Failure Graph) :
    AllOrNothing (Action.onGraph (GraphM.update f)) := by
  intro s e s' hrun
  rw [run_onGraph, run_update] at hrun
  cases hf : f s.graph with
  | ok g => rw [hf] at hrun; cases hrun
  | error e' => rw [hf] at hrun; cases hrun; rfl

theorem allOrNothing_change (f : Graph → Except Error Graph) : AllOrNothing (Action.change f) :=
  allOrNothing_update _

theorem allOrNothing_edit (id : NodeId) (e : LayoutEdit) :
    AllOrNothing (Action.onGraph (Graph.edit id e)) := by
  rw [onGraph_edit]
  exact (inert_read _).bind fun edited => (allOrNothing_update _).bind_pure fun _ => edited.2

/-- The command is done in one step or not at all. -/
def Command.atOnce : Command → Bool
  | connect .. | disconnect .. | remove _ | edit .. => true
  | _ => false

/-- **Connections, removals and edits of layouts are done all or nothing.** -/
theorem Command.allOrNothing {c : Command} (hc : c.atOnce = true) (set : Setter) :
    AllOrNothing (perform set c) := by
  cases c with
  | connect source o target i =>
    exact (inert_node source).bind fun _ => (inert_node target).bind fun _ =>
      (allOrNothing_change _).bind_pure _
  | disconnect label slot =>
    exact (inert_node label).bind fun _ => (allOrNothing_change _).bind_pure _
  | remove label => exact (inert_node label).bind fun _ => (allOrNothing_change _).bind_pure _
  | edit label change =>
    refine (inert_node label).bind fun id => ?_
    have hanswer := (allOrNothing_edit id change).bind_pure fun slot => slot.elim .done Answer.slot
    intro s e s' hrun
    refine hanswer s e s' (Eq.trans (congrArg (fun m : Action Answer => m.run s) ?_) hrun)
    refine congrArg _ (funext fun slot => ?_)
    cases slot <;> rfl
  | _ => cases hc

/-! ## Values -/

/-- What is checked of a value before anyone is told of it. -/
def Graph.checkValue (g : Graph) (id : NodeId) (p : PropertyId) (v : PropertyValue) :
    Except Error Unit := do (← g.property id p).validate p v

/-- The error is one of a value, or of the place that it is for. -/
def Error.concernsValue : Error → Bool
  | staleNode _ | unknownProperty .. | propertyType .. | outOfRange .. | arrayLength .. => true
  | _ => false

/-- Nobody is told of changes of a property. -/
def Graph.Unobserved (g : Graph) (id : NodeId) (p : PropertyId) : Prop :=
  ∀ x, g.property id p = .ok x → x.before = [] ∧ x.after = []

section Values

variable {s s' : Session} {id : NodeId} {p : PropertyId} {v : PropertyValue} {e : Error}

theorem concernsValue_of_checkValue {g : Graph} (h : g.checkValue id p v = .error e) :
    e.concernsValue = true := by
  rcases bind_eq_error.mp h with h | ⟨x, -, h⟩
  · rcases bind_eq_error.mp h with h | ⟨n, -, h⟩
    · rw [node_eq_error fun n hn => by cases hn.symm.trans h] at h
      cases h
      rfl
    · split at h <;> cases h
      rfl
  · have hfloat : ∀ {min max a}, Property.checkFloat p min max a = .error e →
        e.concernsValue = true := by
      intro min max a h
      rw [Property.checkFloat] at h
      split at h <;> cases h
      rfl
    unfold Property.validate at h
    split at h
    · split at h <;> cases h
      rfl
    · exact hfloat h
    · split at h
      · cases h
        rfl
      · obtain ⟨a, -, h⟩ := exists_of_forM_eq_error h
        exact hfloat h
    · cases h
      rfl

theorem run_set_of_checkValue (h : s.graph.checkValue id p v = .error e) :
    (Session.set id p v).run s = (.error (.refused e), s) := by
  rw [Session.set, run_bind_ok (run_get s), Nat.add_right_comm]
  exact run_change_invalid _ h

theorem setTale_of_checkValue (h : s.graph.checkValue id p v = .error e) :
    Session.setTale id p v s = .empty := by
  rw [Graph.checkValue] at h
  rw [Session.setTale, Nat.add_right_comm, changeTale, setTale, h]

/-- Where nobody is told, nothing but an empty list is put back. -/
theorem run_notify_unobserved {run : Event → Observer → Action Unit} {x : Property}
    (hx : s.graph.property id p = .ok x) (phase : Phase) (hnil : x.observers phase = [])
    (v : Option PropertyValue) : (notify run phase ⟨id, p, v⟩).run s = (.ok (),
      { s with graph := s.graph.modifyProperty id p (·.setObservers phase []) }) := by
  obtain ⟨n, hn, hget⟩ := property_eq_ok.mp hx
  have hback : (s.graph.modifyProperty id p (·.setObservers phase [])).restoreObservers phase id p
      (x.observers phase) = s.graph.modifyProperty id p (·.setObservers phase []) := by
    rw [hnil, restoreObservers, modifyProperty_modifyProperty hn]
    simp only [Property.observers_setObservers, Property.setObservers_setObservers, List.append_nil]
  rw [run_notify hn hget phase v (by rw [hnil]; rfl), hback]

theorem property_modifyProperty {g : Graph} {n : Node} (hn : g.node id = .ok n) (p q : PropertyId)
    (f : Property → Property) : (g.modifyProperty id p f).property id q
      = if p = q then (g.property id q).map f else g.property id q := by
  have hn' : (g.modifyProperty id p f).node id
      = .ok { n with properties := n.properties.modify p f } := by
    rw [modifyProperty_of_node hn, node_modifyAt _ hn, if_pos rfl]
  simp only [property, hn, hn', Properties.get?_modify, bind, Except.bind]
  by_cases hpq : p = q
  · rw [if_pos hpq, if_pos hpq]
    cases n.properties.get? q <;> rfl
  · rw [if_neg hpq, if_neg hpq]

/-- **A value that passes the checks is stored, where nobody is told.** -/
theorem run_set_of_unobserved (hv : s.graph.checkValue id p v = .ok ())
    (h : s.graph.Unobserved id p) : ∃ f, (Session.set id p v).run s
      = (.ok (), { s with graph := s.graph.modifyProperty id p f }) := by
  obtain ⟨x, hx, -⟩ := bind_eq_ok.mp hv
  obtain ⟨hbefore, hafter⟩ := h x hx
  obtain ⟨n, hn, hget⟩ := property_eq_ok.mp hx
  have hmodified : ∀ f, (s.graph.modifyProperty id p f).property id p = .ok (f x) := fun f => by
    rw [property_modifyProperty hn, if_pos rfl, hx]
    rfl
  let stored (x : Property) : Property := (x.setObservers .before []).store v
  have hstore : (s.graph.modifyProperty id p (·.setObservers .before [])).store id p v
      = .ok (s.graph.modifyProperty id p stored) := by
    rw [store, hmodified, modifyProperty_modifyProperty hn]
    rfl
  let settled (x : Property) : Property := (stored x).setObservers .after []
  have hlast : ∀ run, (notify run .after ⟨id, p, none⟩).run
      { s with graph := s.graph.modifyProperty id p stored }
        = (.ok (), { s with graph := s.graph.modifyProperty id p settled }) := by
    intro run
    have htold : (s.graph.modifyProperty id p stored).modifyProperty id p (·.setObservers .after [])
        = s.graph.modifyProperty id p settled := modifyProperty_modifyProperty hn p stored _
    rw [← htold]
    exact run_notify_unobserved (x := stored x) (hmodified stored) .after hafter none
  refine ⟨settled, ?_⟩
  rw [Session.set, run_bind_ok (run_get s), Nat.add_right_comm, change, setWith,
    run_bind_ok (run_read_ok hv), run_bind_ok (run_notify_unobserved hx .before hbefore _),
    run_bind_ok (run_change_ok hstore)]
  exact hlast _

theorem Graph.Unobserved.modifyProperty {g : Graph} (h : g.Unobserved id p) {q : PropertyId}
    (hpq : q ≠ p) (f : Property → Property) : (g.modifyProperty id q f).Unobserved id p := by
  intro x hx
  cases hn : g.node id with
  | ok n =>
    rw [property_modifyProperty hn, if_neg hpq] at hx
    exact h x hx
  | error e =>
    have hsame : g.modifyProperty id q f = g := by
      rw [Graph.modifyProperty, contains, hn]
      rfl
    rw [hsame] at hx
    exact h x hx

/-- Where nobody is told, only an error of a value keeps from going on. -/
theorem concernsValue_or_of_run {α : Type} (h : s.graph.Unobserved id p) {next : Unit → Action α}
    (hrun : (Session.set id p v >>= next).run s = (.error (.refused e), s')) :
    e.concernsValue = true ∨ ∃ f,
      (next ()).run { s with graph := s.graph.modifyProperty id p f } = (.error (.refused e), s') := by
  cases hv : s.graph.checkValue id p v with
  | error e' =>
    rw [run_bind_error (run_set_of_checkValue hv)] at hrun
    cases hrun
    exact .inl (concernsValue_of_checkValue hv)
  | ok _ =>
    obtain ⟨f, hset⟩ := run_set_of_unobserved hv h
    rw [run_bind_ok hset] at hrun
    exact .inr ⟨f, hrun⟩

end Values

/-! ## Plans that come to nothing -/

namespace Plan

variable {α β : Type} {s : Session} {e : Failure}

/-- The plan fails, and nothing happens. -/
def Idle (plan : Plan α) (s : Session) (e : Failure) : Prop :=
  (plan.run Session.set).run s = (.error e, s) ∧
    plan.tale Session.set Session.setTale s = .empty

theorem tale_bind_error {set : Setter} {tell : Teller} {plan : Plan α} {s s' : Session}
    (h : (plan.run set).run s = (.error e, s')) (f : α → Plan β) :
    (plan >>= f).tale set tell s = plan.tale set tell s := by
  change (plan.bind f).tale set tell s = _
  induction plan generalizing s with
  | done r =>
    cases r with
    | ok a => cases h
    | error e => rfl
  | look next ih => exact ih s h
  | note g next ih => exact ih h
  | deed d next ih => exact congrArg (Tale.single (.deed d) ++ ·) (ih _ h)
  | set id p v next ih => exact congrArg (tell id p v s ++ ·) (ih _ h)

theorem Idle.bind {plan : Plan α} (h : plan.Idle s e) (f : α → Plan β) : (plan >>= f).Idle s e := by
  constructor
  · rw [run_bind]
    exact run_bind_error h.1
  · rw [tale_bind_error h.1]
    exact h.2

theorem idle_quiet {a : Action α} (ha : a.Neutral) (hrun : a.run s = (.error e, s)) :
    (quiet a).Idle s e := by
  constructor
  · rw [run_quiet _ ha]
    exact hrun
  · rfl

theorem Idle.quiet_bind {a : Action α} (ha : a.Neutral) {x : α} (hrun : a.run s = (.ok x, s))
    {f : α → Plan β} (h : (f x).Idle s e) : (quiet a >>= f).Idle s e := by
  constructor
  · rw [run_bind, run_quiet _ ha, run_bind_ok hrun]
    exact h.1
  · change ((done (a.run s).1).bind f).tale _ _ { (a.run s).2 with graph := s.graph } = _
    rw [hrun]
    exact h.2

theorem idle_assign {id : NodeId} {p : PropertyId} {v : PropertyValue} {e : Error}
    (h : s.graph.checkValue id p v = .error e) : (assign id p v).Idle s (.refused e) := by
  constructor
  · rw [run_assign]
    exact run_set_of_checkValue h
  · rw [assign, tale, setTale_of_checkValue h]
    rfl

end Plan

/-! ## Commands that tell of a change -/

open Plan

/-- What is checked of a node that has a label. -/
def Session.checkNamed (s : Session) (label : Label) (check : NodeId → Except Error Unit) :
    Except Error Unit :=
  match s.nodes.get? label with
  | some id => check id
  | none => .ok ()

/-- What is checked before a standard map is set. -/
def Graph.checkStandardMap (g : Graph) (channels : Nat) (id : NodeId) : Except Error Unit :=
  match ChannelMap.standard? channels with
  | none => .error (.invalidChannelCount channels)
  | some _ => do (← g.node id).kind.expect .amplitudePanner

/-- The properties that a standard map sets. -/
def standardMapProperties : List PropertyId := [.channelMap, .skipCenter, .skipLfe]

namespace Command

variable {c : Command} {s s' : Session}

/-- What a command checks before it tells anyone of a change. -/
def check (s : Session) : Command → Except Error Unit
  | set label p v => s.checkNamed label fun id => s.graph.checkValue id p v
  | reset label p => s.checkNamed label fun id => do
    s.graph.checkValue id p (← s.graph.property id p).default
  | standardMap label channels => s.checkNamed label (s.graph.checkStandardMap channels)
  | _ => .ok ()

/-- The command sets one property. -/
def assigns : Command → Bool
  | set .. | reset .. => true
  | _ => false

/-- Nobody is told of what a command sets. -/
def Unobserved (s : Session) : Command → Prop
  | set label p _ | reset label p =>
    ∀ id, s.nodes.get? label = some id → s.graph.Unobserved id p
  | standardMap label _ =>
    ∀ id, s.nodes.get? label = some id → ∀ p ∈ standardMapProperties, s.graph.Unobserved id p
  | _ => True

theorem check_named {label : Label} {check : NodeId → Except Error Unit} {e : Error}
    (h : s.checkNamed label check = .error e) :
    ∃ id, s.nodes.get? label = some id ∧ check id = .error e := by
  rw [Session.checkNamed] at h
  split at h
  · next id hid => exact ⟨id, hid, h⟩
  · cases h

/-- **What the checks refuse does not happen.** -/
theorem idle_of_check {e : Error} (h : c.check s = .error e) : c.plan.Idle s (.refused e) := by
  cases c with
  | set label p v =>
    obtain ⟨id, hid, h⟩ := check_named h
    exact ((idle_assign h).bind _).quiet_bind (Action.neutral_node _) (run_node hid)
  | reset label p =>
    obtain ⟨id, hid, h⟩ := check_named h
    refine Idle.quiet_bind (Action.neutral_node _) (run_node hid) ?_
    rcases bind_eq_error.mp h with hx | ⟨x, hx, h⟩
    · exact (idle_quiet (Action.neutral_read _) (run_read_error hx)).bind _
    · exact ((idle_assign h).bind _).quiet_bind (Action.neutral_read _) (run_read_ok hx)
  | standardMap label channels =>
    obtain ⟨id, hid, h⟩ := check_named h
    refine Idle.quiet_bind (Action.neutral_node _) (run_node hid) (Idle.bind ?_ _)
    rw [checkStandardMap] at h
    rw [standardMapPlan]
    cases hmap : ChannelMap.standard? channels with
    | none =>
      rw [hmap] at h
      cases h
      exact ⟨rfl, rfl⟩
    | some angles =>
      rw [hmap] at h
      exact (idle_quiet (Action.neutral_read _) (run_read_error h)).bind _
  | _ => cases h

theorem concernsValue_of_check (hc : c.assigns = true) {e : Error} (h : c.check s = .error e) :
    e.concernsValue = true := by
  cases c with
  | set label p v =>
    obtain ⟨id, -, h⟩ := check_named h
    exact concernsValue_of_checkValue h
  | reset label p =>
    obtain ⟨id, -, h⟩ := check_named h
    rcases bind_eq_error.mp h with hx | ⟨x, hx, h⟩
    · exact concernsValue_of_checkValue (v := .int 0) (bind_eq_error.mpr (.inl hx))
    · exact concernsValue_of_checkValue h
  | _ => cases hc

theorem idle_node {label : Label} (h : s.nodes.get? label = none) :
    (quiet (.node label)).Idle s (.aborted (.unbound label)) := by
  refine idle_quiet (Action.neutral_node _) ?_
  rw [Action.node, Action.named, run_bind_ok (run_get s), h]
  rfl

/-- A command fails as its plan does. -/
theorem run_of_idle {f : Failure} (h : c.plan.Idle s f) :
    (perform Session.set c).run s = (.error f, s) := by
  rw [← c.run_plan]
  exact h.1

theorem tale_of_idle {f : Failure} (h : c.plan.Idle s f) : (Step.command c).tale s = .empty :=
  (h.bind _).2

theorem unchanged_of_idle {f f' : Failure} (h : c.plan.Idle s f)
    (hrun : (perform Session.set c).run s = (.error f', s')) :
    s' = s ∧ (Step.command c).tale s = .empty := by
  cases (run_of_idle h).symm.trans hrun
  exact ⟨rfl, tale_of_idle h⟩

/-- **Where nobody is told, a value that is not set leaves everything as it was.** -/
theorem unchanged_of_unobserved (hc : c.assigns = true) (hu : c.Unobserved s) {f : Failure}
    (hrun : (perform Session.set c).run s = (.error f, s')) :
    s' = s ∧ (Step.command c).tale s = .empty := by
  cases hcheck : c.check s with
  | error e => exact unchanged_of_idle (idle_of_check hcheck) hrun
  | ok _ =>
    cases c with
    | set label p v =>
      cases hid : s.nodes.get? label with
      | none => exact unchanged_of_idle ((idle_node hid).bind _) hrun
      | some id =>
        rw [check, Session.checkNamed, hid] at hcheck
        obtain ⟨f, hset⟩ := run_set_of_unobserved hcheck (hu id hid)
        rw [perform, run_bind_ok (run_node hid), run_bind_ok hset] at hrun
        cases hrun
    | reset label p =>
      cases hid : s.nodes.get? label with
      | none => exact unchanged_of_idle ((idle_node hid).bind _) hrun
      | some id =>
        rw [check, Session.checkNamed, hid] at hcheck
        obtain ⟨x, hx, hcheck⟩ := bind_eq_ok.mp hcheck
        obtain ⟨f, hset⟩ := run_set_of_unobserved hcheck (hu id hid)
        rw [perform, run_bind_ok (run_node hid), run_bind_ok (run_read_ok hx), run_bind_ok hset]
          at hrun
        cases hrun
    | _ => cases hc

/-- **Where nobody is told, a standard map that does not fail for a value leaves everything as it
was.** -/
theorem unchanged_of_standardMap {label : Label} {channels : Nat} {e : Error}
    (hu : (standardMap label channels).Unobserved s) (he : e.concernsValue = false)
    (hrun : (perform Session.set (standardMap label channels)).run s = (.error (.refused e), s')) :
    s' = s ∧ (Step.command (standardMap label channels)).tale s = .empty := by
  cases hcheck : (standardMap label channels).check s with
  | error e => exact unchanged_of_idle (idle_of_check hcheck) hrun
  | ok _ =>
    cases hid : s.nodes.get? label with
    | none => exact unchanged_of_idle ((idle_node hid).bind _) hrun
    | some id =>
      -- past the checks only the three values are left, of which none fails in such a way
      rw [check, Session.checkNamed, hid] at hcheck
      dsimp only [checkStandardMap] at hcheck
      rw [perform, run_bind_ok (run_node hid), configureStandardMap] at hrun
      split at hcheck
      · cases hcheck
      · next angles hmap =>
        simp only [hmap, bind_assoc] at hrun
        rw [run_bind_ok (run_read_ok hcheck)] at hrun
        have hu := hu id hid
        have hother : ¬ e.concernsValue = true := Bool.eq_false_iff.mp he
        have hcenter := hu .skipCenter (by decide)
        have hlfe := hu .skipLfe (by decide)
        obtain ⟨f₁, hrun⟩ :=
          (concernsValue_or_of_run (hu .channelMap (by decide)) hrun).resolve_left hother
        have hcenter := hcenter.modifyProperty (q := .channelMap) (by decide) f₁
        have hlfe := hlfe.modifyProperty (q := .channelMap) (by decide) f₁
        obtain ⟨f₂, hrun⟩ := (concernsValue_or_of_run hcenter hrun).resolve_left hother
        have hlfe := hlfe.modifyProperty (q := .skipCenter) (by decide) f₂
        obtain ⟨f₃, hrun⟩ := (concernsValue_or_of_run hlfe hrun).resolve_left hother
        cases hrun

end Command

/-! ## Maps that are not rebuilt -/

/-- The map of a node was not rebuilt: nothing changed but for a map that waited. -/
inductive Graph.Stayed (g : Graph) (id : NodeId) : Graph → Prop
  | same : Stayed g id g
  | discarded {n : Node} {q : AmplitudePanner} (hn : g.node id = .ok n)
      (hq : n.kind = .amplitudePanner q) :
      Stayed g id (g.modifyAt id.index fun _ => { n with kind := .amplitudePanner q.discard })

/-- **A map that is not rebuilt stays**, with the layout and the blocks of its panner. -/
theorem Graph.stayed_of_recomputeMap {g g' : Graph} {id : NodeId} {f : Failure}
    (hrun : (Graph.recomputeMap id).run g = (.error f, g')) : g.Stayed id g' := by
  by_cases hex : ∃ n q, g.node id = .ok n ∧ n.kind = .amplitudePanner q
  · obtain ⟨n, q, hn, hq⟩ := hex
    have hstayed := Stayed.discarded hn hq
    rwa [← node_of_recomputeMap_error hn hq (congrArg Prod.fst hrun), hrun] at hstayed
  · obtain ⟨e, herror⟩ := run_recomputeMap_of_not fun n q hn hk => hex ⟨n, q, hn, hk⟩
    cases herror.symm.trans hrun
    exact .same

/-- The panner keeps its map, its layout and its blocks. -/
theorem Graph.Stayed.exists_panner {g g' : Graph} {id : NodeId} {n : Node} {q : AmplitudePanner}
    (h : g.Stayed id g') (hn : g.node id = .ok n) (hq : n.kind = .amplitudePanner q) :
    ∃ q', g'.node id = .ok { n with kind := .amplitudePanner q' } ∧ q'.map = q.map := by
  cases h with
  | same => exact ⟨q, by rw [hn, ← hq], rfl⟩
  | @discarded m q' hm hq' =>
    cases hn.symm.trans hm
    cases hq.symm.trans hq'
    refine ⟨q.discard, ?_, rfl⟩
    rw [node_modifyAt _ hn, if_pos rfl]

/-! ## Nodes that are not added -/

namespace Graph

variable {g g' : Graph}

/-- The slot that the next node is placed in, one generation older. -/
def spend (g : Graph) : Graph :=
  match g.vacant with
  | i :: _ =>
    { g with slots := g.slots.modify i fun s => { s with generation := s.generation + 1 } }
  | [] => { g with slots := g.slots ++ [⟨1, none⟩], vacant := [g.slots.length] }

theorem Sound.vacate_place_eq_spend (h : g.Sound) (k : NodeKind) :
    (g.place (blank k)).2.vacate g.nextSlot = g.spend := by
  have hedges := h.edges_vacate_place k
  have hempty := h.arena.nodeAt?_nextSlot
  rw [Graph.place, nextSlot] at hedges ⊢
  rw [nextSlot] at hempty
  rw [spend]
  cases hv : g.vacant with
  | nil =>
    simp only [hv, vacate] at hedges ⊢
    have hslots : (g.slots ++ [Slot.mk 0 (some (blank k))]).modify g.slots.length
        (fun s => ⟨s.generation + 1, none⟩) = g.slots ++ [⟨1, none⟩] := by
      refine List.ext_getElem? fun j => ?_
      rw [List.getElem?_modify]
      grind
    rw [hedges, hslots]
  | cons i vacant =>
    simp only [hv, vacate] at hedges hempty ⊢
    have hslots : (g.slots.modify i fun s => { s with node := some (blank k) }).modify i
        (fun s => ⟨s.generation + 1, none⟩)
          = g.slots.modify i fun s => { s with generation := s.generation + 1 } := by
      refine List.ext_getElem? fun j => ?_
      simp only [List.getElem?_modify]
      split
      · next hij =>
        subst hij
        rw [nodeAt?] at hempty
        cases hs : g.slots[i]? with
        | none => rfl
        | some s =>
          have hnone : s.node = none := by simpa [hs] using hempty
          simp [hnone]
      · simp
    rw [hedges, hslots, ← hv]

theorem map_node_spend (g : Graph) :
    ∃ k, g.spend.slots.map Slot.node = g.slots.map Slot.node ++ List.replicate k none := by
  rw [spend]
  cases g.vacant with
  | nil => exact ⟨1, by simp⟩
  | cons i vacant =>
    refine ⟨0, List.ext_getElem? fun j => ?_⟩
    simp only [List.getElem?_map, List.getElem?_modify, List.replicate_zero, List.append_nil]
    cases g.slots[j]? with
    | none => rfl
    | some s => split <;> rfl

theorem nodeCount_spend (g : Graph) : g.spend.nodeCount = g.nodeCount := by
  have hcount : ∀ g : Graph, g.nodeCount = ((g.slots.map Slot.node).filter Option.isSome).length :=
    fun g => by
      rw [List.filter_map, List.length_map]
      rfl
  obtain ⟨k, hk⟩ := map_node_spend g
  rw [hcount, hcount, hk, List.filter_append]
  simp

/-- A slot was spent on a node that was not added, and all else is as it was. -/
structure Spent (g g' : Graph) : Prop where
  spent : g' = g.spend
  node : ∀ id, g'.node id = g.node id
  edges : g'.edges = g.edges
  root : g'.root = g.root
  schedule : g'.schedule = g.schedule
  nodeCount : g'.nodeCount = g.nodeCount
  books : g'.books = g.books

/-- **A node that is not added leaves no more than an older slot.** -/
theorem Sound.spent_of_associate (h : g.Sound) {k : NodeKind} {l : Layout} {f : Failure}
    (hrun : (Graph.associate k l).run g = (.error f, g')) : g.Spent g' := by
  have hspent := h.vacate_place_eq_spend k
  rw [associate_run] at hrun
  split at hrun
  · cases hrun
  · cases hrun
    exact {
      spent := hspent
      node := h.node_vacate_place k
      edges := h.edges_vacate_place k
      root := root_place g _
      schedule := schedule_place g _
      nodeCount := by rw [hspent, nodeCount_spend]
      books := books_place g _ }

end Graph

/-! ## Refusals in reachable states -/

/-- **What is refused leaves a graph as it was.** -/
theorem unchanged_of_refusal {s : Session} (h : s.Reachable) :
    -- connections, removals and layouts
    (∀ c : Command, c.atOnce = true → ∀ f s',
      (perform Session.set c).run s = (.error f, s') → s' = s) ∧
    -- values and standard maps that are refused before anyone is told
    (∀ (c : Command) e, c.check s = .error e →
      (perform Session.set c).run s = (.error (.refused e), s) ∧
        (Step.command c).tale s = .empty ∧ (c.assigns = true → e.concernsValue = true)) ∧
    -- where nobody is told, nothing else refuses a value,
    (∀ c : Command, c.assigns = true → c.Unobserved s → ∀ f s',
      (perform Session.set c).run s = (.error f, s') →
        s' = s ∧ (Step.command c).tale s = .empty) ∧
    -- and a standard map fails for one of its values, or does nothing
    (∀ label channels, (Command.standardMap label channels).Unobserved s → ∀ e s',
      (perform Session.set (.standardMap label channels)).run s = (.error (.refused e), s') →
        e.concernsValue = false →
          s' = s ∧ (Step.command (.standardMap label channels)).tale s = .empty) ∧
    -- maps that are not rebuilt stay, with the layout and the blocks of the panner
    (∀ id f g', (Graph.recomputeMap id).run s.graph = (.error f, g') → s.graph.Stayed id g' ∧
      ∀ n q, s.graph.node id = .ok n → n.kind = .amplitudePanner q →
        ∃ q', g'.node id = .ok { n with kind := .amplitudePanner q' } ∧ q'.map = q.map) ∧
    -- nodes that are not added
    (∀ k l f g', (Graph.associate k l).run s.graph = (.error f, g') → s.graph.Spent g') := by
  refine ⟨fun c hc f s' hrun => Command.allOrNothing hc Session.set s f s' hrun,
    fun c e hcheck => ?_, fun c hc hu f s' hrun => ?_, fun label channels hu e s' hrun he => ?_,
    fun id f g' hrun => ?_, fun k l f g' => h.sound.spent_of_associate⟩
  · have hidle := Command.idle_of_check hcheck
    exact ⟨Command.run_of_idle hidle, Command.tale_of_idle hidle,
      fun hc => Command.concernsValue_of_check hc hcheck⟩
  · exact Command.unchanged_of_unobserved hc hu hrun
  · exact Command.unchanged_of_standardMap hu he hrun
  · have hstayed := stayed_of_recomputeMap hrun
    exact ⟨hstayed, fun n q => hstayed.exists_panner⟩

/-- A layout with a slot beyond its channels. -/
def overhanging : Layout := ⟨1, 0, [⟨0, 2⟩], []⟩

/-- What a panner that outgrew its connection refuses, and the gain that it feeds. -/
theorem refusals_outgrownPanner :
    ((perform Session.set (.connect "g" 0 "p" 0)).run outgrownPanner).1.isOk = false ∧
    (Command.set "g" .suspended (.int 2)).check outgrownPanner
      = .error (.outOfRange .suspended 2 0 1) ∧
    (Command.standardMap "g" 2).check outgrownPanner
      = .error (.typeMismatch .amplitudePanner .gain) ∧
    ((Graph.recomputeMap ⟨0, 0⟩).run outgrownPanner.graph).1.isOk = false ∧
    ((Graph.associate .gain overhanging).run outgrownPanner.graph).1.isOk = false := by
  decide +kernel

theorem unobserved_outgrownPanner :
    (Command.set "g" .suspended (.int 2)).Unobserved outgrownPanner := by
  have hlabel : outgrownPanner.nodes.get? "g" = some ⟨1, 0⟩ := by decide +kernel
  have hnobody : (outgrownPanner.graph.property ⟨1, 0⟩ .suspended).toOption.map
      (fun x => x.before.isEmpty && x.after.isEmpty) = some true := by decide +kernel
  intro id hid x hx
  cases hlabel.symm.trans hid
  rw [hx] at hnobody
  simpa [Except.toOption] using hnobody

/-- None of it leaves a trace, but for the slot of the node that is not added. -/
theorem unchanged_outgrownPanner :
    ((perform Session.set (.connect "g" 0 "p" 0)).run outgrownPanner).2 = outgrownPanner ∧
    (perform Session.set (.set "g" .suspended (.int 2))).run outgrownPanner
      = (.error (.refused (.outOfRange .suspended 2 0 1)), outgrownPanner) ∧
    (Step.command (.set "g" .suspended (.int 2))).tale outgrownPanner = .empty ∧
    (perform Session.set (.standardMap "g" 2)).run outgrownPanner
      = (.error (.refused (.typeMismatch .amplitudePanner .gain)), outgrownPanner) ∧
    outgrownPanner.graph.Stayed ⟨0, 0⟩ ((Graph.recomputeMap ⟨0, 0⟩).run outgrownPanner.graph).2 ∧
    outgrownPanner.graph.Spent ((Graph.associate .gain overhanging).run outgrownPanner.graph).2 := by
  have hfailed : ∀ {ε α σ : Type} {r : Except ε α × σ}, r.1.isOk = false →
      ∃ e, r = (.error e, r.2) := by
    rintro ε α σ ⟨e | a, s⟩ h
    · exact ⟨e, rfl⟩
    · cases h
  obtain ⟨hconnect, hset, hmap, hrebuild, hadd⟩ := refusals_outgrownPanner
  obtain ⟨hatOnce, hchecked, hquiet, -, hrebuilt, hadded⟩ :=
    unchanged_of_refusal reachable_outgrownPanner
  obtain ⟨e, hconnect⟩ := hfailed hconnect
  obtain ⟨e', hrebuild⟩ := hfailed hrebuild
  obtain ⟨e'', hadd⟩ := hfailed hadd
  have hrun := (hchecked _ _ hset).1
  exact ⟨hatOnce _ rfl _ _ hconnect, hrun, (hquiet _ rfl unobserved_outgrownPanner _ _ hrun).2,
    (hchecked _ _ hmap).1, (hrebuilt _ _ _ hrebuild).1, hadded _ _ _ _ hadd⟩

/-- The cause of a refusal. -/
def cause? {α : Type} : Except Failure α → Option Error
  | .error (.refused e) => some e
  | _ => none

/-- A gain that an observer removes before it gets its factor. -/
def selfRemoval : Session := (Session.new 44100 64).afterSteps
  [.create "g" (.gain 1), .command (.observe .before "g" .mul "" none false [.remove "g"])]

/-- A panner whose map somebody objects to, once it is stored. -/
def objection : Session := (Session.new 44100 64).afterSteps
  [.create "p" .amplitudePanner, .create "g" (.gain 1),
    .command (.observe .after "p" .channelMap "" none true [.recomputeMap "g"])]

/-- A value is refused for a node that was removed since it was checked, and a standard map for an
error of an observer; both leave a graph that is not as it was. -/
theorem changed_by_observers :
    selfRemoval.Reachable ∧ objection.Reachable ∧
    let removed := (perform Session.set (.set "g" .mul (.float 2))).run selfRemoval
    let objected := (perform Session.set (.standardMap "p" 6)).run objection
    cause? removed.1 = some (.staleNode ⟨0, 0⟩) ∧
    selfRemoval.log.length = 0 ∧ selfRemoval.graph.nodeCount = 1 ∧
    removed.2.log.length = 2 ∧ removed.2.graph.nodeCount = 0 ∧
    cause? objected.1 = some (.typeMismatch .amplitudePanner .gain) ∧
    (objection.graph.value ⟨0, 0⟩ .channelMap).toOption = some (.floatArray [-90, 90]) ∧
    (objected.2.graph.value ⟨0, 0⟩ .channelMap).toOption
      = some (.floatArray [-22.5, 22.5, -110, 110]) := by
  refine ⟨.step (.step (.new _ _) _) _, .step (.step (.step (.new _ _) _) _) _, ?_⟩
  decide +kernel

end SpatialAudio
