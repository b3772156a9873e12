import SpatialAudio.Proofs.Reachability

/-!
# Proofs/PullOrder — the walk against the connections lists every node behind all that feed it

`walk` keeps a stack, the nodes it has met and those it has emitted.  A node that was met and not
emitted is **open**; where it lies on the stack, everything above it is reached from it, and all that
feeds it is emitted already or lies above it.  So an open node never feeds the node on top — that
would be a cycle — and a node is emitted only behind all that feed it (`Walking`).

The steps given to `pullOrder` suffice (`backlog`), and more steps change nothing
(`walk_eq_of_backlog_le`): the order of a graph depends on its connections alone.
-/

namespace SpatialAudio.Graph

open Relation

/-- A list, last first, in which everything that feeds a node lies behind it. -/
def Ordered (feeds : Nat → List Nat) : List Nat → Prop
  | [] => True
  | i :: rest => (∀ j ∈ feeds i, j ∈ rest) ∧ Ordered feeds rest

/-- The node `j` is one of those that feed `i`. -/
def Needs (feeds : Nat → List Nat) (i j : Nat) : Prop := j ∈ feeds i

/-- What holds at every step of a walk from `root`. -/
structure Walking (feeds : Nat → List Nat) (root : Nat) (stack met emitted : List Nat) : Prop where
  nodup : emitted.Nodup
  met_of_emitted : ∀ i ∈ emitted, i ∈ met
  emitted_or_stacked : ∀ i ∈ met, i ∈ emitted ∨ i ∈ stack
  root_kept : root ∈ met ∨ root ∈ stack
  needed_of_stacked : ∀ i ∈ stack, ReflTransGen (Needs feeds) root i
  needed_of_emitted : ∀ i ∈ emitted, ReflTransGen (Needs feeds) root i
  ordered : Ordered feeds emitted
  -- An open node, at its topmost place.
  anchored : ∀ above i below, stack = above ++ i :: below → i ∈ met → i ∉ emitted → i ∉ above →
    (∀ j ∈ feeds i, j ∈ emitted ∨ j ∈ above) ∧ ∀ j ∈ above, TransGen (Needs feeds) i j

section Walk

variable {feeds : Nat → List Nat} {root top : Nat} {rest met emitted : List Nat}

theorem walking_start (feeds : Nat → List Nat) (root : Nat) : Walking feeds root [root] [] [] where
  nodup := List.nodup_nil
  met_of_emitted := by simp
  emitted_or_stacked := by simp
  root_kept := Or.inr (List.mem_singleton_self root)
  needed_of_stacked := fun i hi => List.mem_singleton.mp hi ▸ ReflTransGen.refl
  needed_of_emitted := by simp
  ordered := trivial
  anchored := by simp

/-- The topmost place of a node on a stack. -/
theorem exists_topmost {i : Nat} {stack : List Nat} (h : i ∈ stack) :
    ∃ above below, stack = above ++ i :: below ∧ i ∉ above := by
  induction stack with
  | nil => exact absurd h List.not_mem_nil
  | cons top rest ih =>
    by_cases ht : i = top
    · exact ⟨[], rest, by rw [ht]; rfl, List.not_mem_nil⟩
    · obtain ⟨above, below, hrest, hi⟩ := ih ((List.mem_cons.mp h).resolve_left ht)
      exact ⟨top :: above, below, by rw [hrest]; rfl, by simp [ht, hi]⟩

/-- In an acyclic graph, what feeds a node just met is emitted or has not been met. -/
theorem Walking.emitted_of_feeds (hac : ∀ i, ¬ TransGen (Needs feeds) i i)
    (h : Walking feeds root (top :: rest) met emitted) (ht : top ∉ met) {j : Nat}
    (hj : j ∈ feeds top) (hm : j ∈ met) : j ∈ emitted := by
  by_contra he
  have hne : j ≠ top := fun hjt => ht (hjt ▸ hm)
  obtain ⟨above, below, hstack, hab⟩ :=
    exists_topmost ((h.emitted_or_stacked j hm).resolve_left he)
  -- `j` is open below `top`, so it leads to `top`, which it feeds
  have htop : top ∈ above := by
    cases above with
    | nil => exact absurd (List.cons.inj hstack).1.symm hne
    | cons a above => exact (List.cons.inj hstack).1 ▸ List.mem_cons_self
  have hpath := (h.anchored above j below hstack hm he hab).2 top htop
  exact hac j (hpath.tail hj)

/-- **A node met for the first time** stays below what feeds it and was not met. -/
theorem Walking.meet (hac : ∀ i, ¬ TransGen (Needs feeds) i i)
    (h : Walking feeds root (top :: rest) met emitted) (ht : top ∉ met) :
    Walking feeds root (((feeds top).filter fun i => i ∉ top :: met).reverse ++ top :: rest)
      (top :: met) emitted where
  nodup := h.nodup
  met_of_emitted i hi := List.mem_cons_of_mem top (h.met_of_emitted i hi)
  emitted_or_stacked := by
    intro i hi
    rcases List.mem_cons.mp hi with rfl | hi
    · exact Or.inr (by simp)
    · exact (h.emitted_or_stacked i hi).imp_right (List.mem_append_right _)
  root_kept :=
    h.root_kept.imp (List.mem_cons_of_mem top) (List.mem_append_right _)
  needed_of_stacked := by
    intro i hi
    have htop := h.needed_of_stacked top List.mem_cons_self
    rcases List.mem_append.mp hi with hi | hi
    · exact htop.tail (List.mem_of_mem_filter (List.mem_reverse.mp hi))
    · exact h.needed_of_stacked i hi
  needed_of_emitted := h.needed_of_emitted
  ordered := h.ordered
  anchored := by
    intro above i below hstack hi he hab
    set fresh := ((feeds top).filter fun i => i ∉ top :: met).reverse with hfresh
    have hnew : ∀ j ∈ fresh, j ∉ top :: met := by
      intro j hj
      simpa using (List.mem_filter.mp (List.mem_reverse.mp hj)).2
    have hfeeds : ∀ j ∈ fresh, j ∈ feeds top := fun j hj =>
      List.mem_of_mem_filter (List.mem_reverse.mp hj)
    -- `i` was met, so it is not among the fresh ones
    obtain ⟨mid, rfl, hmid⟩ : ∃ mid, above = fresh ++ mid ∧ top :: rest = mid ++ i :: below := by
      rcases List.append_eq_append_iff.mp hstack with ⟨mid, hab', hmid⟩ | ⟨mid, hf, hmid⟩
      · exact ⟨mid, hab', hmid⟩
      · cases mid with
        | nil => exact ⟨[], by simpa using hf.symm, hmid.symm⟩
        | cons a mid =>
          have hai : i = a := (List.cons.inj hmid).1
          exact absurd hi (hnew i (by rw [hf, hai]; simp))
    cases mid with
    | nil =>
      obtain rfl : top = i := (List.cons.inj hmid).1
      constructor
      · intro j hj
        by_cases hm : j ∈ met
        · exact Or.inl (h.emitted_of_feeds hac ht hj hm)
        · by_cases hjt : j = top
          · exact absurd (TransGen.single (hjt ▸ hj)) (hac top)
          · refine Or.inr (List.mem_append_left _ (List.mem_reverse.mpr ?_))
            exact List.mem_filter.mpr ⟨hj, by simp [hjt, hm]⟩
      · intro j hj
        rw [List.append_nil] at hj
        exact TransGen.single (hfeeds j hj)
    | cons a mid =>
      obtain rfl : top = a := (List.cons.inj hmid).1
      have hit : i ≠ top := fun hit => hab (hit ▸ by simp)
      have him : i ∈ met := (List.mem_cons.mp hi).resolve_left hit
      have hold := h.anchored (top :: mid) i below hmid him he
        fun hmem => hab (List.mem_append_right _ hmem)
      constructor
      · exact fun j hj => (hold.1 j hj).imp_right (List.mem_append_right _)
      · intro j hj
        rcases List.mem_append.mp hj with hj | hj
        · exact (hold.2 top List.mem_cons_self).tail (hfeeds j hj)
        · exact hold.2 j hj

/-- **A node met again** is taken off the stack and emitted, unless it was: all that feeds it is. -/
theorem Walking.leave (h : Walking feeds root (top :: rest) met emitted) (ht : top ∈ met) :
    Walking feeds root rest met (if top ∈ emitted then emitted else top :: emitted) := by
  set emitted' := if top ∈ emitted then emitted else top :: emitted with hdef
  have hmem : ∀ i, i ∈ emitted' ↔ i = top ∨ i ∈ emitted := by
    intro i
    rw [hdef]
    split
    · next he => exact ⟨Or.inr, fun hi => hi.elim (fun hit => hit ▸ he) id⟩
    · exact List.mem_cons
  refine ⟨?_, ?_, ?_, ?_, ?_, ?_, ?_, ?_⟩
  · rw [hdef]
    split
    · exact h.nodup
    · next he => exact List.nodup_cons.mpr ⟨he, h.nodup⟩
  · exact fun i hi => ((hmem i).mp hi).elim (fun hit => hit ▸ ht) (h.met_of_emitted i)
  · intro i hi
    rw [hmem]
    rcases h.emitted_or_stacked i hi with he | hs
    · exact Or.inl (Or.inr he)
    · exact (List.mem_cons.mp hs).imp_left Or.inl
  · rcases h.root_kept with hm | hs
    · exact Or.inl hm
    · rcases List.mem_cons.mp hs with rfl | hs
      · exact Or.inl ht
      · exact Or.inr hs
  · exact fun i hi => h.needed_of_stacked i (List.mem_cons_of_mem top hi)
  · intro i hi
    rcases (hmem i).mp hi with rfl | hi
    · exact h.needed_of_stacked i List.mem_cons_self
    · exact h.needed_of_emitted i hi
  · rw [hdef]
    split
    · exact h.ordered
    · next he =>
      have hall := (h.anchored [] top rest rfl ht he List.not_mem_nil).1
      exact ⟨fun j hj => (hall j hj).resolve_right List.not_mem_nil, h.ordered⟩
  · intro above i below hstack hi he hab
    have hit : i ≠ top := fun hit => he ((hmem i).mpr (Or.inl hit))
    have hie : i ∉ emitted := fun hmem' => he ((hmem i).mpr (Or.inr hmem'))
    obtain ⟨hall, hpaths⟩ := h.anchored (top :: above) i below (by rw [hstack]; rfl) hi hie
      (by simp [hit, hab])
    constructor
    · intro j hj
      rw [hmem]
      rcases hall j hj with hje | hja
      · exact Or.inl (Or.inr hje)
      · exact (List.mem_cons.mp hja).imp_left Or.inl
    · exact fun j hj => hpaths j (List.mem_cons_of_mem top hj)

end Walk

/-! ## Enough steps -/

/-- How many steps a walk still takes at most: one for each node on the stack, one to meet each
further node, and one for each further connection that may put a node on the stack. -/
def backlog (edges : List Edge) (n : Nat) (stack met : List Nat) : Nat :=
  stack.length + (edges.filter fun e => e.target ∉ met).length
    + ((List.range n).filter fun i => i ∉ met).length

theorem length_filter_notMem_cons {α : Type} (f : α → Nat) {top : Nat} {met : List Nat}
    (ht : top ∉ met) (l : List α) :
    (l.filter fun a => f a ∉ met).length
      = (l.filter fun a => f a ∉ top :: met).length + (l.filter fun a => f a = top).length := by
  induction l with
  | nil => rfl
  | cons a l ih =>
    by_cases ha : f a = top
    · rw [List.filter_cons_of_pos (by simp [ha, ht]), List.filter_cons_of_neg (by simp [ha]),
        List.filter_cons_of_pos (by simp [ha]), List.length_cons, List.length_cons, ih]
      omega
    · rw [List.filter_cons_of_neg (p := fun a => f a = top) (by simp [ha])]
      by_cases hm : f a ∈ met
      · rw [List.filter_cons_of_neg (by simp [hm]), List.filter_cons_of_neg (by simp [hm]), ih]
      · rw [List.filter_cons_of_pos (by simp [hm]), List.filter_cons_of_pos (by simp [ha, hm]),
          List.length_cons, List.length_cons, ih]
        omega

section Fuel

variable {g : Graph} {n top : Nat} {rest met : List Nat}

theorem backlog_meet (ht : top ∉ met) (hn : top < n) :
    backlog g.edges n (((g.predecessors top).filter fun i => i ∉ top :: met).reverse ++ top :: rest)
      (top :: met) < backlog g.edges n (top :: rest) met := by
  have hpushed : ((g.predecessors top).filter fun i => i ∉ top :: met).length
      ≤ (g.edges.filter fun e => e.target = top).length := by
    have hlength : (g.predecessors top).length
        = (g.edges.filter fun e => e.target = top).length := by
      rw [predecessors, List.length_map, incoming]
    exact Nat.le_trans (List.length_filter_le _ _) (Nat.le_of_eq hlength)
  have hedges := length_filter_notMem_cons Edge.target ht g.edges
  have hnodes := length_filter_notMem_cons id ht (List.range n)
  have hone : 0 < ((List.range n).filter fun i => id i = top).length :=
    List.length_pos_of_mem (List.mem_filter.mpr ⟨List.mem_range.mpr hn, by simp⟩)
  simp only [id_eq] at hnodes hone
  simp only [backlog, List.length_append, List.length_reverse, List.length_cons]
  omega

theorem backlog_leave (edges : List Edge) :
    backlog edges n rest met < backlog edges n (top :: rest) met := by
  simp only [backlog, List.length_cons]
  omega

theorem eq_nil_of_backlog_le_zero {edges : List Edge} {stack : List Nat}
    (h : backlog edges n stack met ≤ 0) : stack = [] := by
  rw [← List.length_eq_zero_iff]
  simp only [backlog] at h
  omega

/-- What is put on the stack is a node. -/
theorem lt_of_mem_meet (hedges : ∀ e ∈ g.edges, e.source < n) (hstack : ∀ i ∈ top :: rest, i < n)
    {i : Nat} (hi : i ∈ ((g.predecessors top).filter fun i => i ∉ top :: met).reverse ++ top :: rest) :
    i < n := by
  rcases List.mem_append.mp hi with hi | hi
  · obtain ⟨e, he, rfl⟩ := List.mem_map.mp (List.mem_of_mem_filter (List.mem_reverse.mp hi))
    exact hedges e (List.mem_of_mem_filter he)
  · exact hstack i hi

/-- One step more than enough changes nothing. -/
theorem walk_succ_of_backlog_le (hedges : ∀ e ∈ g.edges, e.source < n) {steps : Nat}
    {stack met emitted : List Nat} (hstack : ∀ i ∈ stack, i < n)
    (hsteps : backlog g.edges n stack met ≤ steps) :
    walk g.predecessors (steps + 1) stack met emitted
      = walk g.predecessors steps stack met emitted := by
  induction steps generalizing stack met emitted with
  | zero =>
    obtain rfl := eq_nil_of_backlog_le_zero hsteps
    rfl
  | succ steps ih =>
    cases stack with
    | nil => rfl
    | cons top rest =>
      rw [walk, walk]
      have hrest : ∀ i ∈ rest, i < n := fun i hi => hstack i (List.mem_cons_of_mem top hi)
      split
      · exact ih hrest (Nat.le_of_lt_succ (Nat.lt_of_lt_of_le (backlog_leave g.edges) hsteps))
      · next ht =>
        refine ih (fun i hi => lt_of_mem_meet hedges hstack hi) (Nat.le_of_lt_succ ?_)
        exact Nat.lt_of_lt_of_le (backlog_meet ht (hstack top List.mem_cons_self)) hsteps

/-- **A walk with enough steps does not depend on their number.** -/
theorem walk_eq_of_backlog_le (hedges : ∀ e ∈ g.edges, e.source < n) {stack met emitted : List Nat}
    (hstack : ∀ i ∈ stack, i < n) {steps steps' : Nat} (hle : steps ≤ steps')
    (hsteps : backlog g.edges n stack met ≤ steps) :
    walk g.predecessors steps' stack met emitted = walk g.predecessors steps stack met emitted := by
  induction hle with
  | refl => rfl
  | step hle ih => rw [← ih, walk_succ_of_backlog_le hedges hstack (Nat.le_trans hsteps hle)]

/-- **A walk with enough steps ends with an empty stack.** -/
theorem exists_walking_of_backlog_le (hac : ∀ i, ¬ TransGen (Needs g.predecessors) i i)
    (hedges : ∀ e ∈ g.edges, e.source < n) {root steps : Nat} {stack met emitted : List Nat}
    (hstack : ∀ i ∈ stack, i < n) (hsteps : backlog g.edges n stack met ≤ steps)
    (h : Walking g.predecessors root stack met emitted) :
    ∃ met', Walking g.predecessors root [] met'
      (walk g.predecessors steps stack met emitted) := by
  induction steps generalizing stack met emitted with
  | zero =>
    obtain rfl := eq_nil_of_backlog_le_zero hsteps
    exact ⟨met, h⟩
  | succ steps ih =>
    cases stack with
    | nil => exact ⟨met, h⟩
    | cons top rest =>
      rw [walk]
      have hrest : ∀ i ∈ rest, i < n := fun i hi => hstack i (List.mem_cons_of_mem top hi)
      split
      · next ht =>
        exact ih hrest (Nat.le_of_lt_succ (Nat.lt_of_lt_of_le (backlog_leave g.edges) hsteps))
          (h.leave ht)
      · next ht =>
        refine ih (fun i hi => lt_of_mem_meet hedges hstack hi) (Nat.le_of_lt_succ ?_) (h.meet hac ht)
        exact Nat.lt_of_lt_of_le (backlog_meet ht (hstack top List.mem_cons_self)) hsteps

end Fuel

/-! ## The order -/

/-- What feeds a node is what some connection leads from. -/
theorem needs_predecessors {g : Graph} {i j : Nat} :
    Needs g.predecessors i j ↔ Feeds g.edges j i := by
  simp only [Needs, predecessors, incoming, List.mem_map, List.mem_filter, decide_eq_true_iff,
    Feeds]
  constructor
  · rintro ⟨e, ⟨he, ht⟩, hs⟩
    exact ⟨e, he, hs, ht⟩
  · rintro ⟨e, he, hs, ht⟩
    exact ⟨e, ⟨he, ht⟩, hs⟩

theorem needs_eq_swap (g : Graph) :
    Needs g.predecessors = Function.swap (Feeds g.edges) :=
  funext fun _ => funext fun _ => propext needs_predecessors

/-- A node of an ordered list, with all that feeds it behind it. -/
theorem Ordered.exists_split {feeds : Nat → List Nat} {l : List Nat} (h : Ordered feeds l) {i : Nat}
    (hi : i ∈ l) : ∃ l₁ l₂, l = l₁ ++ i :: l₂ ∧ ∀ j ∈ feeds i, j ∈ l₂ := by
  induction l with
  | nil => exact absurd hi List.not_mem_nil
  | cons a l ih =>
    rcases List.mem_cons.mp hi with rfl | hi
    · exact ⟨[], l, rfl, h.1⟩
    · obtain ⟨l₁, l₂, rfl, hall⟩ := ih h.2 hi
      exact ⟨a :: l₁, l₂, rfl, hall⟩

theorem Ordered.closed {feeds : Nat → List Nat} {l : List Nat} (h : Ordered feeds l) {i j : Nat}
    (hi : i ∈ l) (hij : ReflTransGen (Needs feeds) i j) : j ∈ l := by
  induction hij with
  | refl => exact hi
  | tail _ hstep ih =>
    obtain ⟨l₁, l₂, rfl, hall⟩ := h.exists_split ih
    exact List.mem_append_right _ (List.mem_cons_of_mem _ (hall _ hstep))

section Order

variable {g : Graph} {root : Nat}

theorem backlog_start_le (edges : List Edge) (n root : Nat) :
    backlog edges n [root] [] ≤ n + edges.length + 1 := by
  simp only [backlog, List.not_mem_nil, not_false_eq_true, decide_true, List.filter_true,
    List.length_range, List.length_singleton]
  omega

/-- The steps given to the walk suffice. -/
theorem exists_walking_pullOrder (hac : Acyclic g.edges)
    (hedges : ∀ e ∈ g.edges, e.source < g.slots.length) (hroot : root < g.slots.length) :
    ∃ met, Walking g.predecessors root [] met (g.pullOrder root).reverse := by
  have hac' : ∀ i, ¬ TransGen (Needs g.predecessors) i i := by
    intro i hi
    rw [needs_eq_swap, transGen_swap] at hi
    exact hac i hi
  obtain ⟨met, h⟩ := exists_walking_of_backlog_le hac' hedges
    (fun i hi => List.mem_singleton.mp hi ▸ hroot) (backlog_start_le g.edges _ root)
    (walking_start g.predecessors root)
  exact ⟨met, by rwa [pullOrder, List.reverse_reverse]⟩

variable (hac : Acyclic g.edges) (hedges : ∀ e ∈ g.edges, e.source < g.slots.length)
  (hroot : root < g.slots.length)

include hac hedges hroot

/-- **No node is pulled twice.** -/
theorem nodup_pullOrder : (g.pullOrder root).Nodup := by
  obtain ⟨met, h⟩ := exists_walking_pullOrder hac hedges hroot
  exact List.nodup_reverse.mp h.nodup

/-- **Exactly the nodes that lead to the root are pulled.** -/
theorem mem_pullOrder_iff {i : Nat} : i ∈ g.pullOrder root ↔ Leads g.edges i root := by
  obtain ⟨met, h⟩ := exists_walking_pullOrder hac hedges hroot
  have hswap : ReflTransGen (Needs g.predecessors) root i ↔ Leads g.edges i root := by
    rw [needs_eq_swap, reflTransGen_swap]
  rw [← List.mem_reverse, ← hswap]
  have hr : root ∈ (g.pullOrder root).reverse := by
    have hmet := h.root_kept.resolve_right List.not_mem_nil
    exact (h.emitted_or_stacked root hmet).resolve_right List.not_mem_nil
  exact ⟨h.needed_of_emitted i, h.ordered.closed hr⟩

/-- **Every connection into a pulled node comes from a node pulled before it.** -/
theorem idxOf_pullOrder_lt {e : Edge} (he : e ∈ g.edges) (ht : e.target ∈ g.pullOrder root) :
    (g.pullOrder root).idxOf e.source < (g.pullOrder root).idxOf e.target := by
  obtain ⟨met, h⟩ := exists_walking_pullOrder hac hedges hroot
  obtain ⟨l₁, l₂, hsplit, hall⟩ := h.ordered.exists_split (List.mem_reverse.mpr ht)
  have hs : e.source ∈ l₂ := hall _ (needs_predecessors.mpr ⟨e, he, rfl, rfl⟩)
  have horder : g.pullOrder root = l₂.reverse ++ e.target :: l₁.reverse := by
    rw [← List.reverse_reverse (g.pullOrder root), hsplit]
    simp
  have hnd := h.nodup
  rw [hsplit] at hnd
  have hfirst : e.target ∉ l₂.reverse := by
    rw [List.mem_reverse]
    exact (List.nodup_cons.mp (List.nodup_append.mp hnd).2.1).1
  rw [horder, List.idxOf_append_of_mem (List.mem_reverse.mpr hs), List.idxOf_append_of_notMem hfirst,
    List.idxOf_cons_self]
  exact Nat.lt_of_lt_of_le (List.idxOf_lt_length_iff.mpr (List.mem_reverse.mpr hs))
    (Nat.le_add_right _ _)

/-- **The root is pulled last.** -/
theorem getLast?_pullOrder : (g.pullOrder root).getLast? = some root := by
  obtain ⟨met, h⟩ := exists_walking_pullOrder hac hedges hroot
  have hr := (mem_pullOrder_iff hac hedges hroot).mpr (ReflTransGen.refl (a := root))
  obtain ⟨l₁, l₂, hsplit, -⟩ := h.ordered.exists_split (List.mem_reverse.mpr hr)
  rw [List.getLast?_eq_head?_reverse, hsplit]
  cases l₁ with
  | nil => rfl
  | cons i l₁ =>
    -- a node behind the root would lead to it, and so lie before it
    have hi : i ∈ g.pullOrder root := by rw [← List.mem_reverse, hsplit]; simp
    have hlead := (mem_pullOrder_iff hac hedges hroot).mp hi
    have hnd := h.nodup
    rw [hsplit, List.cons_append, List.nodup_cons] at hnd
    have hordered := h.ordered
    rw [hsplit, List.cons_append] at hordered
    have hback : ReflTransGen (Needs g.predecessors) root i := by
      rw [needs_eq_swap, reflTransGen_swap]
      exact hlead
    exact absurd (hordered.2.closed (by simp) hback) hnd.1

omit hac in
/-- **The order depends on the connections alone.** -/
theorem pullOrder_congr {g' : Graph} (he : g'.edges = g.edges)
    (hlen : ∀ e ∈ g.edges, e.source < g'.slots.length) (hroot' : root < g'.slots.length) :
    g'.pullOrder root = g.pullOrder root := by
  have hpred : g'.predecessors = g.predecessors := by
    funext i
    rw [predecessors, predecessors, incoming, incoming, he]
  rw [pullOrder, pullOrder, hpred, he]
  -- compare both walks with one that has the steps of the larger arena
  refine congrArg List.reverse ?_
  have hsingle : ∀ {n : Nat}, root < n → ∀ i ∈ [root], i < n :=
    fun hn i hi => List.mem_singleton.mp hi ▸ hn
  rcases Nat.le_total g.slots.length g'.slots.length with hle | hle
  · exact walk_eq_of_backlog_le hedges (hsingle hroot) (by omega) (backlog_start_le _ _ _)
  · exact (walk_eq_of_backlog_le hlen (hsingle hroot') (by omega) (backlog_start_le _ _ _)).symm

end Order

end SpatialAudio.Graph
