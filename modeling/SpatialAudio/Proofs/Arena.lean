import SpatialAudio.Graph.Lifecycle
import SpatialAudio.Proofs.Outcome

/-!
# Proofs/Arena — handles, the nodes they name, and what placing and vacating do to both

A graph is read through `Graph.node`: a handle names a node while its slot holds its generation.
Handles of living nodes in one slot are equal (`eq_of_index_eq`), so every change of one node is a
change at one handle (`node_modifyAt`).  Placing and vacating change the node in one slot
(`nodeAt?_place`, `nodeAt?_vacate`); placing keeps the generations of all slots.
-/

namespace SpatialAudio.Graph

variable {g : Graph} {id id' : NodeId} {i j : Nat} {n : Node}

/-! ## Handles -/

theorem node_eq_error (h : ∀ n, g.node id ≠ .ok n) : g.node id = .error (.staleNode id) := by
  unfold node at h ⊢
  split
  · next generation n hslot =>
    rw [hslot] at h
    split
    · next hgen => exact absurd (if_pos hgen) (h n)
    · rfl
  · rfl

theorem nodeAt?_of_node (h : g.node id = .ok n) : g.nodeAt? id.index = some n := by
  rw [nodeAt?, (node_eq_ok_iff g id n).mp h]
  rfl

theorem handleAt_of_node (h : g.node id = .ok n) : g.handleAt id.index = id := by
  rw [handleAt, (node_eq_ok_iff g id n).mp h]
  rfl

/-- The node in a slot is the node of the slot's handle. -/
theorem node_handleAt : g.node (g.handleAt i) = .ok n ↔ g.nodeAt? i = some n := by
  rw [node_eq_ok_iff, nodeAt?, handleAt]
  rcases g.slots[i]? with _ | ⟨generation, _ | m⟩ <;> simp

/-- A handle is good where its slot has a node and hands it out. -/
theorem node_eq_ok : g.node id = .ok n ↔ g.nodeAt? id.index = some n ∧ g.handleAt id.index = id := by
  constructor
  · exact fun h => ⟨nodeAt?_of_node h, handleAt_of_node h⟩
  · rintro ⟨hn, hid⟩
    rw [← hid]
    exact node_handleAt.mpr hn

theorem lt_of_nodeAt? (h : g.nodeAt? i = some n) : i < g.slots.length := by
  rcases Nat.lt_or_ge i g.slots.length with hlt | hge
  · exact hlt
  · rw [nodeAt?, List.getElem?_eq_none hge] at h
    cases h

/-- **Two living handles of one slot are one handle.** -/
theorem eq_of_index_eq {n' : Node} (h : g.node id = .ok n) (h' : g.node id' = .ok n')
    (hi : id.index = id'.index) : id = id' := by
  rw [← handleAt_of_node h, ← handleAt_of_node h', hi]

/-- Graphs with the same living handles answer alike. -/
theorem node_congr {g' : Graph} (h : ∀ n, g.node id = .ok n ↔ g'.node id' = .ok n)
    (hid : id = id') : g.node id = g'.node id' := by
  subst hid
  cases hn : g.node id with
  | ok n => exact ((h n).mp hn).symm
  | error e =>
    have hno : ∀ n, g.node id ≠ .ok n := fun n hok => by rw [hn] at hok; cases hok
    rw [← hn, node_eq_error hno, node_eq_error fun n hok => hno n ((h n).mpr hok)]

/-- A slot shows what the handles of it name. -/
theorem nodeAt?_congr {g' : Graph} (h : ∀ x : NodeId, x.index = i → g'.node x = g.node x) :
    g'.nodeAt? i = g.nodeAt? i := by
  refine Option.ext fun n => ?_
  rw [← node_handleAt, ← node_handleAt (g := g)]
  constructor
  · intro hn
    rw [h _ rfl] at hn
    have hid : g.handleAt i = g'.handleAt i := handleAt_of_node hn
    rw [hid]
    exact hn
  · intro hn
    rw [← h _ rfl] at hn
    have hid : g'.handleAt i = g.handleAt i := handleAt_of_node hn
    rw [hid]
    exact hn

theorem contains_iff : g.contains id = true ↔ ∃ n, g.node id = .ok n := by
  rw [contains]
  cases g.node id <;> simp [Except.isOk, Except.toBool]

theorem index_eq_ok : g.index id = .ok i ↔ (∃ n, g.node id = .ok n) ∧ i = id.index := by
  rw [index, bind_eq_ok]
  constructor
  · rintro ⟨n, hn, hi⟩
    exact ⟨⟨n, hn⟩, (pure_eq_ok.mp hi).symm⟩
  · rintro ⟨⟨n, hn⟩, rfl⟩
    exact ⟨n, hn, rfl⟩

theorem publicIndex_eq_ok :
    g.publicIndex id = .ok i ↔ (∃ n, g.node id = .ok n ∧ n.owner = none) ∧ i = id.index := by
  rw [publicIndex, bind_eq_ok]
  constructor
  · rintro ⟨n, hn, hi⟩
    cases ho : n.owner with
    | none =>
      rw [ho] at hi
      exact ⟨⟨n, hn, ho⟩, (pure_eq_ok.mp hi).symm⟩
    | some o =>
      rw [ho] at hi
      exact absurd hi throw_ne_ok
  · rintro ⟨⟨n, hn, ho⟩, rfl⟩
    exact ⟨n, hn, by rw [ho]; rfl⟩

/-! ## Changing a node -/

/-- Changing the node of a living handle changes what that handle names. -/
theorem node_modifyAt (f : Node → Node) (h : g.node id = .ok n) (id' : NodeId) :
    (g.modifyAt id.index f).node id' = if id' = id then .ok (f n) else g.node id' := by
  have hslot := (node_eq_ok_iff g id n).mp h
  split
  · next hid =>
    subst hid
    rw [node_eq_ok_iff]
    simp [modifyAt, hslot]
  · next hid =>
    refine node_congr (fun m => ?_) rfl
    rw [node_eq_ok_iff, node_eq_ok_iff, modifyAt, List.getElem?_modify]
    split
    · next hi =>
      -- another handle of the same slot is stale before and after
      rw [← hi, hslot]
      have hgen : id.generation ≠ id'.generation := by
        intro hgen
        apply hid
        cases id
        cases id'
        simp_all
      simp [hgen]
    · simp

@[simp] theorem modifyAt_modifyAt (g : Graph) (i : Nat) (f h : Node → Node) :
    (g.modifyAt i f).modifyAt i h = g.modifyAt i (h ∘ f) := by
  simp only [modifyAt, List.modify_modify_eq]
  congr 2
  funext s
  simp

/-- Only what is done to the node in the slot counts. -/
theorem modifyAt_congr {f : Node → Node} (hi : g.nodeAt? i = some n) (f' : Node → Node)
    (hf : f n = f' n) : g.modifyAt i f = g.modifyAt i f' := by
  rw [modifyAt, modifyAt]
  congr 1
  refine List.ext_getElem? fun j => ?_
  rw [List.getElem?_modify, List.getElem?_modify]
  split
  · next hij =>
    subst hij
    rw [nodeAt?] at hi
    rcases hs : g.slots[i]? with _ | ⟨generation, _ | m⟩
    · rfl
    · rfl
    · rw [hs] at hi
      cases hi
      simp [hf]
  · rfl

@[simp] theorem edges_modifyAt (g : Graph) (i : Nat) (f : Node → Node) :
    (g.modifyAt i f).edges = g.edges := rfl

@[simp] theorem length_modifyAt (g : Graph) (i : Nat) (f : Node → Node) :
    (g.modifyAt i f).slots.length = g.slots.length := List.length_modify ..

@[simp] theorem layoutAt_modifyAt (g : Graph) (i j : Nat) (f : Node → Node) :
    (g.modifyAt i f).layoutAt j
      = if i = j then (((g.nodeAt? j).map f).map Node.layout).getD .empty else g.layoutAt j := by
  rw [layoutAt, nodeAt?_modifyAt]
  split <;> rfl

/-! ## Placing and vacating -/

/-- The vacant slots are vacant, and each is listed once. -/
structure Arena (g : Graph) : Prop where
  vacant : ∀ i ∈ g.vacant, i < g.slots.length ∧ g.nodeAt? i = none
  nodup : g.vacant.Nodup

/-- The slot that the next node is placed in. -/
def nextSlot (g : Graph) : Nat :=
  match g.vacant with
  | i :: _ => i
  | [] => g.slots.length

@[simp] theorem fst_place (g : Graph) (n : Node) : (g.place n).1 = g.nextSlot := by
  rw [place, nextSlot]
  cases g.vacant <;> rfl

@[simp] theorem edges_place (g : Graph) (n : Node) : (g.place n).2.edges = g.edges := by
  rw [place]
  cases g.vacant <;> rfl

@[simp] theorem root_place (g : Graph) (n : Node) : (g.place n).2.root = g.root := by
  rw [place]
  cases g.vacant <;> rfl

@[simp] theorem schedule_place (g : Graph) (n : Node) : (g.place n).2.schedule = g.schedule := by
  rw [place]
  cases g.vacant <;> rfl

theorem length_place_le (g : Graph) (n : Node) :
    g.slots.length ≤ (g.place n).2.slots.length := by
  rw [place]
  cases g.vacant <;> simp

theorem Arena.nodeAt?_nextSlot (ha : g.Arena) : g.nodeAt? g.nextSlot = none := by
  rw [nextSlot]
  cases hv : g.vacant with
  | nil => simp [nodeAt?]
  | cons i vacant => exact (ha.vacant i (by rw [hv]; exact List.mem_cons_self)).2

theorem nodeAt?_place (ha : g.Arena) (n : Node) (j : Nat) :
    (g.place n).2.nodeAt? j = if j = g.nextSlot then some n else g.nodeAt? j := by
  rw [place, nextSlot]
  cases hv : g.vacant with
  | nil =>
    simp only [nodeAt?, List.getElem?_append]
    rcases Nat.lt_trichotomy j g.slots.length with hj | rfl | hj
    · rw [if_pos hj, if_neg (Nat.ne_of_lt hj)]
    · simp
    · rw [if_neg (Nat.lt_asymm hj), if_neg (Nat.ne_of_gt hj), List.getElem?_eq_none (l := g.slots)
        (Nat.le_of_lt hj), List.getElem?_eq_none (by simp; omega)]
  | cons i vacant =>
    obtain ⟨hi, -⟩ := ha.vacant i (by rw [hv]; exact List.mem_cons_self)
    simp only [nodeAt?, List.getElem?_modify]
    by_cases hij : j = i
    · subst hij
      simp [List.getElem?_eq_getElem hi]
    · simp [Ne.symm hij, hij]

theorem handleAt_place (g : Graph) (n : Node) (j : Nat) :
    (g.place n).2.handleAt j = g.handleAt j := by
  rw [place]
  cases g.vacant with
  | nil =>
    simp only [handleAt, List.getElem?_append]
    rcases Nat.lt_trichotomy j g.slots.length with hj | rfl | hj
    · rw [if_pos hj]
    · simp
    · rw [if_neg (Nat.lt_asymm hj), List.getElem?_eq_none (l := g.slots) (Nat.le_of_lt hj),
        List.getElem?_eq_none (by simp; omega)]
  | cons i vacant =>
    simp only [handleAt, List.getElem?_modify]
    split <;> cases g.slots[j]? <;> simp

/-- The handle of the node that is placed next. -/
def nextHandle (g : Graph) : NodeId := g.handleAt g.nextSlot

/-- **Placing a node adds its handle.** -/
theorem node_place (ha : g.Arena) (n : Node) (id : NodeId) :
    (g.place n).2.node id = if id = g.nextHandle then .ok n else g.node id := by
  split
  · next hid =>
    subst hid
    rw [node_eq_ok, nodeAt?_place ha, handleAt_place]
    exact ⟨if_pos rfl, rfl⟩
  · next hid =>
    refine node_congr (fun m => ?_) rfl
    rw [node_eq_ok, node_eq_ok, nodeAt?_place ha, handleAt_place]
    refine and_congr_left fun hh => ?_
    rw [if_neg fun hi => hid (by rw [← hh, hi, nextHandle])]

theorem Arena.node_nextHandle (ha : g.Arena) (n : Node) : g.node g.nextHandle ≠ .ok n := by
  intro h
  have hsome := nodeAt?_of_node h
  rw [show g.nextHandle.index = g.nextSlot from rfl, ha.nodeAt?_nextSlot] at hsome
  cases hsome

theorem Arena.place (ha : g.Arena) (n : Node) : (g.place n).2.Arena := by
  have hlen := length_place_le g n
  have hplace := nodeAt?_place ha n
  unfold Graph.place at hplace hlen ⊢
  cases hv : g.vacant with
  | nil =>
    exact ⟨fun i hi => by simp at hi, by simp⟩
  | cons k vacant =>
    have hnd := ha.nodup
    rw [hv, List.nodup_cons] at hnd
    simp only [hv] at hplace hlen ⊢
    refine ⟨fun i hi => ?_, hnd.2⟩
    obtain ⟨hlt, hnone⟩ := ha.vacant i (by rw [hv]; exact List.mem_cons_of_mem k hi)
    refine ⟨Nat.lt_of_lt_of_le hlt hlen, ?_⟩
    have hnext : g.nextSlot = k := by rw [nextSlot, hv]
    rw [hplace, if_neg fun hik => hnd.1 (by rwa [← hnext, ← hik]), hnone]

theorem nodeAt?_vacate (g : Graph) (i j : Nat) :
    (g.vacate i).nodeAt? j = if j = i then none else g.nodeAt? j := by
  simp only [vacate, nodeAt?, List.getElem?_modify]
  by_cases hij : j = i
  · subst hij
    cases g.slots[j]? <;> simp
  · simp [Ne.symm hij, hij]

theorem handleAt_vacate (g : Graph) {i j : Nat} (h : j ≠ i) :
    (g.vacate i).handleAt j = g.handleAt j := by
  simp [vacate, handleAt, Ne.symm h]

theorem length_vacate (g : Graph) (i : Nat) : (g.vacate i).slots.length = g.slots.length :=
  List.length_modify ..

/-- **Vacating a slot takes its handle away.** -/
theorem node_vacate_eq_ok {m : Node} :
    (g.vacate i).node id = .ok m ↔ id.index ≠ i ∧ g.node id = .ok m := by
  rw [node_eq_ok, node_eq_ok, nodeAt?_vacate]
  by_cases hi : id.index = i
  · simp [hi]
  · rw [if_neg hi, handleAt_vacate g hi]
    exact ⟨fun h => ⟨hi, h⟩, And.right⟩

theorem Arena.vacate (ha : g.Arena) (h : g.nodeAt? i = some n) : (g.vacate i).Arena where
  vacant := by
    intro j hj
    rw [length_vacate, nodeAt?_vacate]
    rcases List.mem_cons.mp hj with rfl | hj
    · exact ⟨lt_of_nodeAt? h, if_pos rfl⟩
    · obtain ⟨hlt, hnone⟩ := ha.vacant j hj
      refine ⟨hlt, ?_⟩
      rw [hnone]
      exact ite_self none
  nodup := by
    refine List.nodup_cons.mpr ⟨fun hi => ?_, ha.nodup⟩
    have hnone := (ha.vacant i hi).2
    rw [h] at hnone
    cases hnone

end SpatialAudio.Graph
