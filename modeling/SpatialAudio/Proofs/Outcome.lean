import SpatialAudio.Session.Basic

/-!
# Proofs/Outcome — reading results off operations that may fail

An operation that may fail is a chain of binds.  `bind_eq_ok` takes such a chain apart where it
succeeded, `run_bind` runs one that also has a state; the operations of a session differ from those
of its graph only by what else the session holds (`run_onGraph`).
-/

namespace SpatialAudio

/-! ## Without a state -/

section Except

variable {ε α β : Type}

theorem bind_eq_ok {x : Except ε α} {f : α → Except ε β} {b : β} :
    (x >>= f) = .ok b ↔ ∃ a, x = .ok a ∧ f a = .ok b := by
  cases x with
  | ok a =>
    constructor
    · exact fun h => ⟨a, rfl, h⟩
    · rintro ⟨a', ha, h⟩
      cases ha
      exact h
  | error e =>
    constructor
    · intro h
      cases h
    · rintro ⟨a, ha, -⟩
      cases ha

theorem bind_eq_error {x : Except ε α} {f : α → Except ε β} {e : ε} :
    (x >>= f) = .error e ↔ x = .error e ∨ ∃ a, x = .ok a ∧ f a = .error e := by
  cases x with
  | ok a =>
    constructor
    · exact fun h => .inr ⟨a, rfl, h⟩
    · rintro (h | ⟨a', ha, h⟩)
      · cases h
      · cases ha
        exact h
  | error e' =>
    constructor
    · exact fun h => .inl (by cases h; rfl)
    · rintro (h | ⟨a, ha, -⟩)
      · cases h
        rfl
      · cases ha

theorem bind_unit_eq_ok {x : Except ε Unit} {f : Unit → Except ε β} {b : β} :
    (x >>= f) = .ok b ↔ x = .ok () ∧ f () = .ok b := by
  rw [bind_eq_ok]
  exact ⟨fun ⟨_, h⟩ => h, fun h => ⟨(), h⟩⟩

@[simp] theorem pure_eq_ok {a b : α} : (pure a : Except ε α) = .ok b ↔ a = b :=
  ⟨fun h => Except.ok.inj h, fun h => congrArg Except.ok h⟩

@[simp] theorem throw_ne_ok {e : ε} {a : α} : (throw e : Except ε α) ≠ .ok a := by
  intro h
  cases h

/-- A check that fails has no result. -/
theorem guard_eq_ok {p : Prop} [Decidable p] {e : ε} {f : α → Except ε β} {x : Except ε β} {b : β} :
    (if p then (throw e : Except ε α) >>= f else x) = .ok b ↔ ¬ p ∧ x = .ok b := by
  split
  · next hp =>
    rw [bind_eq_ok]
    exact ⟨fun ⟨_, h, _⟩ => absurd h throw_ne_ok, fun h => absurd hp h.1⟩
  · next hp => exact ⟨fun h => ⟨hp, h⟩, fun h => h.2⟩

theorem isOk_iff {x : Except ε α} : x.isOk = true ↔ ∃ a, x = .ok a := by
  cases x <;> simp [Except.isOk, Except.toBool]

/-- What is read off a result was read off a success. -/
theorem map_toOption_eq_some {f : α → β} {x : Except ε α} {b : β} :
    x.toOption.map f = some b ↔ ∃ a, x = .ok a ∧ f a = b := by
  cases x with
  | ok a =>
    refine ⟨fun h => ⟨a, rfl, Option.some.inj h⟩, ?_⟩
    rintro ⟨a', ha, h⟩
    cases ha
    exact congrArg some h
  | error e =>
    constructor
    · intro h
      cases h
    · rintro ⟨a, ha, -⟩
      cases ha

/-- A refusal lifted to a failure is no success. -/
@[simp] theorem liftM_error_eq_ok {x : Except Error α} {a : α} :
    (liftM x : Except Failure α) = .ok a ↔ x = .ok a := by
  cases x with
  | ok b =>
    change (Except.ok b : Except Failure α) = .ok a ↔ _
    simp
  | error e =>
    change (Except.error _ : Except Failure α) = .ok a ↔ _
    simp

theorem liftM_error_eq_error {x : Except Error α} {f : Failure} :
    (liftM x : Except Failure α) = .error f ↔ ∃ e, x = .error e ∧ f = .refused e := by
  cases x with
  | ok a =>
    constructor
    · intro h
      cases h
    · rintro ⟨e, h, -⟩
      cases h
  | error e =>
    constructor
    · intro h
      cases h
      exact ⟨e, rfl, rfl⟩
    · rintro ⟨e', h, rfl⟩
      cases h
      rfl

/-- An abort lifted to a failure is no success. -/
@[simp] theorem liftM_abort_eq_ok {x : Except Abort α} {a : α} :
    (liftM x : Except Failure α) = .ok a ↔ x = .ok a := by
  cases x with
  | ok b =>
    change (Except.ok b : Except Failure α) = .ok a ↔ _
    simp
  | error e =>
    change (Except.error _ : Except Failure α) = .ok a ↔ _
    simp

/-- A list of checks passes if every one of them does. -/
theorem forM_eq_ok {f : α → Except ε Unit} {l : List α} :
    l.forM f = .ok () ↔ ∀ a ∈ l, f a = .ok () := by
  induction l with
  | nil => exact ⟨fun _ _ h => absurd h List.not_mem_nil, fun _ => rfl⟩
  | cons a l ih =>
    change (f a >>= fun _ => l.forM f) = .ok () ↔ _
    rw [bind_unit_eq_ok, List.forall_mem_cons, ← ih]

/-- A list of checks fails where one of them does. -/
theorem exists_of_forM_eq_error {f : α → Except ε Unit} {l : List α} {e : ε}
    (h : l.forM f = .error e) : ∃ a ∈ l, f a = .error e := by
  induction l with
  | nil => cases h
  | cons a l ih =>
    change (f a >>= fun _ => l.forM f) = .error e at h
    rcases bind_eq_error.mp h with h | ⟨_, -, h⟩
    · exact ⟨a, List.mem_cons_self, h⟩
    · obtain ⟨b, hb, h⟩ := ih h
      exact ⟨b, List.mem_cons_of_mem a hb, h⟩

/-- The result is not the error `e`. -/
def Avoids (e : ε) (x : Except ε α) : Prop := x ≠ .error e

theorem avoids_ok {e : ε} (a : α) : Avoids e (.ok a) := nofun

theorem avoids_error {e e' : ε} (h : e' ≠ e) : Avoids e (.error e' : Except ε α) := fun heq =>
  h (Except.error.inj heq)

theorem Avoids.bind_of {e : ε} {x : Except ε α} {f : α → Except ε β} (hx : Avoids e x)
    (hf : ∀ a, x = .ok a → Avoids e (f a)) : Avoids e (x >>= f) := by
  intro h
  rcases bind_eq_error.mp h with h | ⟨a, ha, h⟩
  · exact hx h
  · exact hf a ha h

theorem Avoids.bind {e : ε} {x : Except ε α} {f : α → Except ε β} (hx : Avoids e x)
    (hf : ∀ a, Avoids e (f a)) : Avoids e (x >>= f) := hx.bind_of fun a _ => hf a

/-- A check that fails with another error. -/
theorem Avoids.guard {p : Prop} [Decidable p] {e e' : ε} {f : α → Except ε β} {x : Except ε β}
    (he : e' ≠ e) (hx : ¬ p → Avoids e x) :
    Avoids e (if p then (throw e' : Except ε α) >>= f else x) := by
  split
  · exact avoids_error he
  · next hp => exact hx hp

theorem avoids_foldlM {e : ε} {f : β → α → Except ε β} (hf : ∀ b a, Avoids e (f b a)) (b : β)
    (as : List α) : Avoids e (as.foldlM f b) := by
  induction as generalizing b with
  | nil => exact avoids_ok b
  | cons a as ih => exact (hf b a).bind fun b' => ih b'

end Except

/-! ## With a state -/

section State

variable {ε σ α β : Type}

theorem run_bind (x : ExceptT ε (StateM σ) α) (f : α → ExceptT ε (StateM σ) β) (s : σ) :
    (x >>= f).run s = match x.run s with
      | (.ok a, s') => (f a).run s'
      | (.error e, s') => (.error e, s') := by
  change StateT.run (ExceptT.bind x f) s = _
  rcases h : x.run s with ⟨r, s'⟩
  cases r with
  | ok a => exact congrArg (fun p : Except ε α × σ => StateT.run (ExceptT.bindCont f p.1) p.2) h
  | error e => exact congrArg (fun p : Except ε α × σ => StateT.run (ExceptT.bindCont f p.1) p.2) h

theorem run_bind_ok {x : ExceptT ε (StateM σ) α} {f : α → ExceptT ε (StateM σ) β} {s s' : σ} {a : α}
    (h : x.run s = (.ok a, s')) : (x >>= f).run s = (f a).run s' := by
  rw [run_bind, h]

theorem run_bind_error {x : ExceptT ε (StateM σ) α} {f : α → ExceptT ε (StateM σ) β} {s s' : σ}
    {e : ε} (h : x.run s = (.error e, s')) : (x >>= f).run s = (.error e, s') := by
  rw [run_bind, h]

theorem run_bind_eq_ok {x : ExceptT ε (StateM σ) α} {f : α → ExceptT ε (StateM σ) β} {s t : σ}
    {b : β} : (x >>= f).run s = (.ok b, t) ↔
      ∃ a s', x.run s = (.ok a, s') ∧ (f a).run s' = (.ok b, t) := by
  rw [run_bind]
  constructor
  · intro h
    split at h
    · next a s' hx => exact ⟨a, s', hx, h⟩
    · cases h
  · rintro ⟨a, s', hx, h⟩
    rw [hx]
    exact h

@[simp] theorem run_get (s : σ) : (get : ExceptT ε (StateM σ) σ).run s = (.ok s, s) := rfl

@[simp] theorem run_modify (f : σ → σ) (s : σ) :
    (modify f : ExceptT ε (StateM σ) PUnit).run s = (.ok PUnit.unit, f s) := rfl

end State

/-! ## Graphs and sessions -/

theorem run_read {α : Type} (f : Graph → Except Error α) (g : Graph) :
    (GraphM.read f).run g = ((f g).mapError Failure.refused, g) := by
  rw [GraphM.read, run_bind_ok (run_get g)]
  cases f g <;> rfl

theorem run_update (f : Graph → Except Failure Graph) (g : Graph) :
    (GraphM.update f).run g = match f g with
      | .ok g' => (.ok (), g')
      | .error e => (.error e, g) := by
  rw [GraphM.update, run_bind_ok (run_get g)]
  cases f g <;> rfl

theorem run_change (f : Graph → Except Error Graph) (g : Graph) :
    (GraphM.change f).run g = match f g with
      | .ok g' => (.ok (), g')
      | .error e => (.error (.refused e), g) := by
  rw [GraphM.change, run_update]
  cases f g <;> rfl

@[simp] theorem run_onGraph {α : Type} (m : GraphM α) (s : Session) :
    (Action.onGraph m).run s = ((m.run s.graph).1, { s with graph := (m.run s.graph).2 }) := rfl

theorem run_read_ok {α : Type} {f : Graph → Except Error α} {s : Session} {a : α}
    (h : f s.graph = .ok a) : (Action.read f).run s = (.ok a, s) := by
  rw [Action.read, run_onGraph, run_read, h]
  rfl

theorem run_read_error {α : Type} {f : Graph → Except Error α} {s : Session} {e : Error}
    (h : f s.graph = .error e) : (Action.read f).run s = (.error (.refused e), s) := by
  rw [Action.read, run_onGraph, run_read, h]
  rfl

theorem run_change_ok {f : Graph → Except Error Graph} {s : Session} {g : Graph}
    (h : f s.graph = .ok g) : (Action.change f).run s = (.ok (), { s with graph := g }) := by
  rw [Action.change, run_onGraph, run_change, h]

theorem run_change_error {f : Graph → Except Error Graph} {s : Session} {e : Error}
    (h : f s.graph = .error e) : (Action.change f).run s = (.error (.refused e), s) := by
  rw [Action.change, run_onGraph, run_change, h]

theorem run_update_eq_ok {f : Graph → Except Failure Graph} {s t : Session} {u : Unit} :
    (Action.onGraph (GraphM.update f)).run s = (.ok u, t) ↔
      ∃ g, f s.graph = .ok g ∧ t = { s with graph := g } := by
  rw [run_onGraph, run_update]
  cases f s.graph with
  | ok g =>
    constructor
    · intro h
      cases h
      exact ⟨g, rfl, rfl⟩
    · rintro ⟨_, hg, rfl⟩
      cases hg
      rfl
  | error e =>
    constructor
    · intro h
      cases h
    · rintro ⟨_, hg, -⟩
      cases hg

theorem run_change_eq_ok {f : Graph → Except Error Graph} {s t : Session} {u : Unit} :
    (Action.change f).run s = (.ok u, t) ↔
      ∃ g, f s.graph = .ok g ∧ t = { s with graph := g } := by
  rw [Action.change, GraphM.change, run_update_eq_ok]
  simp only [liftM_error_eq_ok]

theorem run_read_eq_ok {α : Type} {f : Graph → Except Error α} {s t : Session} {a : α} :
    (Action.read f).run s = (.ok a, t) ↔ f s.graph = .ok a ∧ t = s := by
  rw [Action.read, run_onGraph, run_read]
  cases f s.graph with
  | ok b =>
    constructor
    · intro h
      cases h
      exact ⟨rfl, rfl⟩
    · rintro ⟨hb, rfl⟩
      cases hb
      rfl
  | error e =>
    constructor
    · intro h
      cases h
    · rintro ⟨hb, -⟩
      cases hb

theorem run_named {α : Type} {bindings : Session → Bindings α} {s : Session} {label : Label} {a : α}
    (h : (bindings s).get? label = some a) : (Action.named bindings label).run s = (.ok a, s) := by
  rw [Action.named, run_bind_ok (run_get s), h]
  rfl

theorem run_node {s : Session} {label : Label} {id : NodeId} (h : s.nodes.get? label = some id) :
    (Action.node label).run s = (.ok id, s) := run_named h

theorem forM_singleton {α : Type} (f : α → Action Unit) (a : α) : [a].forM f = f a :=
  bind_pure_unit

@[simp] theorem run_attempt {α : Type} (a : Action α) (s : Session) :
    a.attempt.run s = (.ok (a.run s).1, (a.run s).2) := rfl

@[simp] theorem run_settle {α : Type} (r : Except Failure α) (s : Session) :
    (Action.settle r).run s = (r, s) := by
  cases r <;> rfl

end SpatialAudio
