import Mathlib.Algebra.BigOperators.Fin
import Mathlib.Algebra.Order.BigOperators.Group.Finset
import Mathlib.Algebra.Order.Group.Multiset
import SpatialAudio.Proofs.Attendance

/-!
# Proofs/Crowd — the observers at hand

`Graph.crowd` gathers the observers of all properties of all nodes, each as often as it is
registered.  Taking a list of observers out takes exactly these out of the crowd
(`crowd_takeObservers`), and putting them back adds no others (`crowd_restoreObservers_le`).  A deed
that registers nothing adds nobody: nodes keep their observers or go with them, and a new node has
none (`crowd_deed_le`).
-/

namespace SpatialAudio

open SpatialAudio.Graph

theorem PropertyId.mem_all (p : PropertyId) : p ∈ all := by cases p <;> decide

/-- The phases of all properties. -/
def places : Finset (Phase × PropertyId) := {.before, .after} ×ˢ PropertyId.all.toFinset

theorem mem_places (b : Phase × PropertyId) : b ∈ places := by
  have hphase : b.1 = .before ∨ b.1 = .after := by cases b.1 <;> simp
  simp [places, hphase, PropertyId.mem_all]

/-- A phase of a property of the node in a slot. -/
abbrev Seat := Nat × Phase × PropertyId

/-- The seats of so many slots. -/
def seats (count : Nat) : Finset Seat := Finset.range count ×ˢ places

theorem mem_seats {count : Nat} {a : Seat} : a ∈ seats count ↔ a.1 < count := by
  simp [seats, mem_places]

/-- The observers of a property in a phase, none if there is no such property. -/
def Node.attending (n : Node) (phase : Phase) (p : PropertyId) : List Observer :=
  (n.properties.observers? phase p).getD []

/-- Nobody observes the node. -/
def Node.Alone (n : Node) : Prop := ∀ phase p, n.attending phase p = []

theorem Node.attending_of_frame {n n' : Node} (h : n'.properties.frame = n.properties.frame)
    (phase : Phase) (p : PropertyId) : n'.attending phase p = n.attending phase p := by
  rw [attending, attending, Properties.observers?_of_frame h]

/-- Nobody observes a new node. -/
theorem alone_blank (k : NodeKind) : (blank k).Alone := by
  intro phase p
  cases k <;> cases phase <;> cases p <;> rfl

namespace Graph

variable {g g' : Graph} {id : NodeId} {n : Node}

/-- The observers at a seat. -/
def seated (g : Graph) (a : Seat) : List Observer :=
  match g.nodeAt? a.1 with
  | some n => n.attending a.2.1 a.2.2
  | none => []

/-- The observers of all properties of all nodes. -/
def crowd (g : Graph) : Multiset Observer :=
  ∑ a ∈ seats g.slots.length, (g.seated a : Multiset Observer)

theorem seated_of_node (hn : g.node id = .ok n) (phase : Phase) (p : PropertyId) :
    g.seated (id.index, phase, p) = n.attending phase p := by
  simp only [seated, nodeAt?_of_node hn]

/-- Further slots hold nobody. -/
theorem crowd_eq_sum {count : Nat} (h : g.slots.length ≤ count) :
    g.crowd = ∑ a ∈ seats count, (g.seated a : Multiset Observer) := by
  refine Finset.sum_subset (fun a ha => ?_) fun a _ ha => ?_
  · exact mem_seats.mpr (Nat.lt_of_lt_of_le (mem_seats.mp ha) h)
  · have hnone : g.nodeAt? a.1 = none := by
      rw [nodeAt?, List.getElem?_eq_none (Nat.le_of_not_lt fun hlt => ha (mem_seats.mpr hlt))]
      rfl
    simp only [seated, hnone, Multiset.coe_nil]

/-- **Where every node keeps its observers or has none, nobody is added.** -/
theorem crowd_le (h : ∀ x n', g'.node x = .ok n' →
    (∃ n, g.node x = .ok n ∧ n'.properties.frame = n.properties.frame) ∨ n'.Alone) :
    g'.crowd ≤ g.crowd := by
  rw [crowd_eq_sum (Nat.le_max_left g'.slots.length g.slots.length),
    crowd_eq_sum (Nat.le_max_right g'.slots.length g.slots.length)]
  refine Finset.sum_le_sum fun ⟨i, phase, p⟩ _ => ?_
  cases hat : g'.nodeAt? i with
  | none => simp [seated, hat]
  | some n' =>
    have hn' := node_handleAt.mpr hat
    have hseated' : g'.seated (i, phase, p) = n'.attending phase p := seated_of_node hn' phase p
    rw [hseated']
    rcases h _ n' hn' with ⟨n, hn, hframe⟩ | halone
    · have hseated : g.seated (i, phase, p) = n.attending phase p := seated_of_node hn phase p
      rw [hseated, n.attending_of_frame hframe]
    · simp [halone phase p]

/-! ## Taking observers out -/

/-- Changing the observers at one seat leaves the others alone. -/
theorem seated_modifyProperty (hn : g.node id = .ok n) (phase : Phase) (p : PropertyId)
    (f : List Observer → List Observer) (a : Seat) :
    (g.modifyProperty id p fun y => y.setObservers phase (f (y.observers phase))).seated a
      = if a = (id.index, phase, p) then ((n.properties.observers? phase p).map f).getD []
        else g.seated a := by
  obtain ⟨i, phase', q⟩ := a
  rw [modifyProperty_of_node hn]
  by_cases hi : id.index = i
  · subst hi
    simp only [seated, nodeAt?_modifyAt, if_pos, nodeAt?_of_node hn, Option.map_some,
      Node.attending, Properties.observers?_modify]
    by_cases hseat : p = q ∧ phase = phase'
    · obtain ⟨rfl, rfl⟩ := hseat
      simp
    · rw [if_neg hseat, if_neg fun h => hseat (by simp_all)]
  · simp only [seated, nodeAt?_modifyAt, if_neg hi]
    rw [if_neg fun h => hi (congrArg Prod.fst h).symm]

/-- Where the observers at one seat change, the crowd changes by these. -/
theorem crowd_of_one_seat {a : Seat} (hlength : g'.slots.length = g.slots.length)
    (ha : a.1 < g.slots.length) (h : ∀ b ≠ a, g'.seated b = g.seated b) :
    g'.crowd + g.seated a = g.crowd + g'.seated a := by
  have hothers : ∑ b ∈ (seats g.slots.length).erase a, (g'.seated b : Multiset Observer)
      = ∑ b ∈ (seats g.slots.length).erase a, (g.seated b : Multiset Observer) :=
    Finset.sum_congr rfl fun b hb => by rw [h b (Finset.ne_of_mem_erase hb)]
  rw [crowd, crowd, hlength, ← Finset.add_sum_erase _ _ (mem_seats.mpr ha),
    ← Finset.add_sum_erase (seats g.slots.length) _ (mem_seats.mpr ha), hothers]
  ac_rfl

/-- **Changing a list of observers shows in the crowd as it shows in the list**, if there is such a
list. -/
theorem crowd_modifyProperty (g : Graph) (id : NodeId) (p : PropertyId) (phase : Phase)
    (f : List Observer → List Observer) :
    (∃ y, g.property id p = .ok y ∧
      (g.modifyProperty id p fun y => y.setObservers phase (f (y.observers phase))).crowd
          + y.observers phase = g.crowd + (f (y.observers phase) : List Observer)) ∨
    (∀ y, g.property id p ≠ .ok y) ∧
      (g.modifyProperty id p fun y => y.setObservers phase (f (y.observers phase))).crowd
        = g.crowd := by
  cases hn : g.node id with
  | error e =>
    refine .inr ⟨fun y hy => ?_, ?_⟩
    · obtain ⟨n, hn', -⟩ := property_eq_ok.mp hy
      cases hn.symm.trans hn'
    · have hgone : ¬ g.contains id = true := by
        rw [contains, hn]
        exact Bool.false_ne_true
      rw [modifyProperty, if_neg hgone]
  | ok n =>
    have hseated := seated_modifyProperty hn phase p f
    have hone := crowd_of_one_seat (a := (id.index, phase, p))
      (alike_modifyProperty g id p fun y => y.setObservers phase (f (y.observers phase))).length
      (lt_of_nodeAt? (nodeAt?_of_node hn)) fun b hb => by rw [hseated, if_neg hb]
    rw [hseated, if_pos rfl, seated_of_node hn, Node.attending] at hone
    cases hy : n.properties.get? p with
    | none =>
      refine .inr ⟨fun y hy' => ?_, ?_⟩
      · obtain ⟨n', hn', hy'⟩ := property_eq_ok.mp hy'
        cases hn.symm.trans hn'
        cases hy.symm.trans hy'
      · simpa [Properties.observers?, hy] using hone
    | some y =>
      refine .inl ⟨y, property_eq_ok.mpr ⟨n, hn, hy⟩, ?_⟩
      simpa [Properties.observers?, hy] using hone

/-- **Who is taken out is in the crowd before, and not after.** -/
theorem crowd_takeObservers (g : Graph) (phase : Phase) (id : NodeId) (p : PropertyId) :
    g.crowd = (g.takeObservers phase id p).1 + (g.takeObservers phase id p).2.crowd := by
  rcases g.crowd_modifyProperty id p phase fun _ => [] with ⟨y, hy, hcrowd⟩ | ⟨hnone, hcrowd⟩
  · simp only [takeObservers, hy]
    rw [add_comm, hcrowd, Multiset.coe_nil, add_zero]
  · cases hy : g.property id p with
    | ok y => exact absurd hy (hnone y)
    | error e =>
      simp only [takeObservers, hy]
      rw [hcrowd, Multiset.coe_nil, zero_add]

/-- **Putting observers back adds no others.** -/
theorem crowd_restoreObservers_le (g : Graph) (phase : Phase) (id : NodeId) (p : PropertyId)
    (os : List Observer) : (g.restoreObservers phase id p os).crowd ≤ os + g.crowd := by
  rcases g.crowd_modifyProperty id p phase (os ++ ·) with ⟨y, -, hcrowd⟩ | ⟨-, hcrowd⟩
  · refine le_of_eq (add_right_cancel (b := (y.observers phase : Multiset Observer)) ?_)
    rw [restoreObservers, hcrowd, ← Multiset.coe_add, ← add_assoc, add_comm g.crowd]
  · rw [restoreObservers, hcrowd]
    exact le_add_of_nonneg_left (Multiset.zero_le _)

/-! ## Deeds -/

/-- Storing a value leaves the observers where they are. -/
theorem crowd_store_le (h : g.Sound) (id : NodeId) (p : PropertyId) (v : PropertyValue) :
    (g.modifyProperty id p (·.store v)).crowd ≤ g.crowd := by
  refine crowd_le fun x n' hn' => .inl ?_
  obtain ⟨n, hn, rfl | ⟨-, rfl⟩⟩ := h.stems_modifyProperty id p _ hn'
  · exact ⟨_, hn, rfl⟩
  · exact ⟨n, hn, Properties.frame_store _ _ _⟩

end Graph

/-- The deed registers observers. -/
def Deed.registers {α : Type} : Deed α → Bool
  | .observe .. | .assemble _ => true
  | _ => false

theorem Deed.Touches.frame {α : Type} {d : Deed α} {g : Graph} {x : NodeId} {n n' : Node}
    (h : d.Touches g x n n') (hd : d.registers = false) :
    n'.properties.frame = n.properties.frame := by
  cases d with
  | arrange id layout =>
    obtain ⟨-, rfl⟩ := h
    exact congrArg Properties.frame (rearrange_properties layout n)
  | observe => cases hd
  | recomputeMap id => exact congrArg Properties.frame h.2.1
  | markRecompute id =>
    obtain ⟨-, q, -, rfl⟩ := h
    rfl
  | adopt id strategy =>
    obtain ⟨-, m, -, rfl⟩ := h
    rfl
  | pull id => exact h.2.frame
  | _ => exact h.elim

/-- **A deed that registers nothing adds nobody.** -/
theorem Graph.crowd_deed_le {α : Type} {g : Graph} (h : g.Sound) {d : Deed α}
    (hd : d.registers = false) : (d.after g).crowd ≤ g.crowd := by
  by_cases hmakes : d.makes = true
  · cases d with
    | associate kind layout =>
      refine crowd_le fun x n' hn' => ?_
      change ((Graph.associate kind layout).run g).2.node x = .ok n' at hn'
      rcases associate_cases h kind layout with ⟨g', hrun, hw⟩ | ⟨e, g', hrun, -, hnode, -⟩
      · rw [hrun] at hn'
        by_cases hx : x = g.nextHandle
        · subst hx
          cases hw.self.symm.trans hn'
          exact .inr (alone_blank kind)
        · exact .inl ⟨n', (hw.other hx).symm.trans hn', rfl⟩
      · rw [hrun] at hn'
        exact .inl ⟨n', (hnode x).symm.trans hn', rfl⟩
    | assemble => cases hd
    | _ => cases hmakes
  · refine crowd_le fun x n' hn' => .inl ?_
    obtain ⟨n, hn, rfl | htouched⟩ := Deed.stems h (Bool.eq_false_of_not_eq_true hmakes) hn'
    · exact ⟨_, hn, rfl⟩
    · exact ⟨n, hn, htouched.frame hd⟩

/-! ## All observers -/

/-- The observers of all properties of a node. -/
def Node.observers (n : Node) : List Observer :=
  n.properties.entries.flatMap fun e => e.2.before ++ e.2.after

namespace Graph

/-- The observers that are registered on all nodes together. -/
def observers (g : Graph) : List Observer :=
  g.slots.flatMap fun s =>
    match s.node with
    | some n => n.observers
    | none => []

theorem length_observers (g : Graph) : g.observers.length = g.observerCount := by
  rw [observers, observerCount, List.length_flatMap]
  refine congrArg List.sum (List.map_congr_left fun s _ => ?_)
  cases s.node with
  | some n => simp [Node.observers, List.length_flatMap]
  | none => rfl

/-- A list of lists as a sum. -/
theorem coe_flatMap {α : Type} (l : List α) (f : α → List Observer) :
    ((l.flatMap f : List Observer) : Multiset Observer)
      = (l.map fun a => (f a : Multiset Observer)).sum := by
  induction l with
  | nil => rfl
  | cons a l ih => rw [List.flatMap_cons, ← Multiset.coe_add, ih, List.map_cons, List.sum_cons]

/-- Who attends to a property of a node is among the observers of the node. -/
theorem sum_attending_le (n : Node) :
    ∑ b ∈ places, (n.attending b.1 b.2 : Multiset Observer) ≤ n.observers := by
  rw [Node.observers, coe_flatMap]
  simp only [Node.attending]
  obtain ⟨entries⟩ := n.properties
  induction entries with
  | nil => simp [Properties.observers?, Properties.get?]
  | cons e entries ih =>
    obtain ⟨q, y⟩ := e
    -- an entry is seen at its own places, and hides further ones of its identifier
    have hseen : ∀ b : Phase × PropertyId,
        ((Properties.observers? ⟨(q, y) :: entries⟩ b.1 b.2).getD [] : Multiset Observer)
          ≤ (if b.2 = q then (y.observers b.1 : Multiset Observer) else 0)
            + ((Properties.observers? ⟨entries⟩ b.1 b.2).getD [] : List Observer) := by
      intro b
      by_cases hb : q = b.2
      · refine le_trans (le_of_eq ?_) (le_add_of_nonneg_right (Multiset.zero_le _))
        simp [Properties.observers?, Properties.get?, hb]
      · simp [Properties.observers?, Properties.get?, hb, Ne.symm hb]
    have hown : ∑ b ∈ places, (if b.2 = q then (y.observers b.1 : Multiset Observer) else 0)
        = (y.before ++ y.after : List Observer) := by
      rw [places, Finset.sum_product]
      simp [PropertyId.mem_all, Property.observers]
    refine (Finset.sum_le_sum fun b _ => hseen b).trans ?_
    rw [Finset.sum_add_distrib, hown, List.map_cons, List.sum_cons]
    exact add_le_add_right ih _

/-- **The crowd is among the observers that are registered.** -/
theorem crowd_le_observers (g : Graph) : g.crowd ≤ g.observers := by
  rw [crowd, seats, Finset.sum_product, Finset.sum_range, observers, coe_flatMap,
    ← Fin.sum_univ_fun_getElem]
  refine Finset.sum_le_sum fun i _ => ?_
  have hat : g.nodeAt? i = (g.slots[i.1]).node := by
    rw [nodeAt?, List.getElem?_eq_getElem i.2]
    rfl
  simp only [seated, hat]
  cases (g.slots[i.1]).node with
  | some n => exact sum_attending_le n
  | none => simp

end Graph

end SpatialAudio
