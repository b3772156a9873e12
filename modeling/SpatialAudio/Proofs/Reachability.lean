import Mathlib.Data.List.Nodup
import Mathlib.Logic.Relation
import SpatialAudio.Graph.Schedule

/-!
# Proofs/Reachability — the search along connections finds exactly the paths

`Feeds edges` is the relation "some connection leads from here to there"; its reflexive transitive
closure is what `Graph.reaches` decides (`reaches_iff`).  One round of the search takes every
connection once, so it is done as soon as a round adds nothing — and every other round adds the
target of some connection, of which there are only so many.
-/

namespace SpatialAudio

open Relation

/-- Some connection leads from `i` to `j`. -/
def Feeds (edges : List Edge) (i j : Nat) : Prop := ∃ e ∈ edges, e.source = i ∧ e.target = j

/-- Connections lead from `i` to `j`, perhaps none at all. -/
abbrev Leads (edges : List Edge) : Nat → Nat → Prop := ReflTransGen (Feeds edges)

/-- No connections lead from a node back to itself. -/
def Acyclic (edges : List Edge) : Prop := ∀ i, ¬ TransGen (Feeds edges) i i

theorem Feeds.mono {edges edges' : List Edge} (h : ∀ e ∈ edges, e ∈ edges') {i j : Nat}
    (hf : Feeds edges i j) : Feeds edges' i j := by
  obtain ⟨e, he, hs, ht⟩ := hf
  exact ⟨e, h e he, hs, ht⟩

theorem Acyclic.mono {edges edges' : List Edge} (h : ∀ e ∈ edges, e ∈ edges')
    (ha : Acyclic edges') : Acyclic edges :=
  fun i hi => ha i (TransGen.mono (fun _ _ => Feeds.mono h) i i hi)

/-- A path with one more connection to take either does without it, or leads up to it and from it
on. -/
theorem leads_cons {edges : List Edge} {e : Edge} {i j : Nat} (h : Leads (e :: edges) i j) :
    Leads edges i j ∨ Leads edges i e.source ∧ Leads edges e.target j := by
  induction h with
  | refl => exact Or.inl ReflTransGen.refl
  | tail _ hstep ih =>
    obtain ⟨d, hd, rfl, rfl⟩ := hstep
    rcases List.mem_cons.mp hd with rfl | hd
    · exact Or.inr ⟨ih.elim id And.left, ReflTransGen.refl⟩
    · exact ih.imp (fun h => h.tail ⟨d, hd, rfl, rfl⟩) fun h => ⟨h.1, h.2.tail ⟨d, hd, rfl, rfl⟩⟩

/-- Nothing leads to a node that no connection enters. -/
theorem not_leads {edges : List Edge} {i j : Nat} (h : ∀ e ∈ edges, e.target ≠ j) (hij : i ≠ j) :
    ¬ Leads edges i j := by
  intro hl
  rcases ReflTransGen.cases_tail hl with heq | ⟨k, -, e, he, -, ht⟩
  · exact hij heq.symm
  · exact h e he ht

/-- **A connection whose target does not lead to its source closes no cycle.** -/
theorem Acyclic.cons {edges : List Edge} (ha : Acyclic edges) {e : Edge}
    (he : ¬ Leads edges e.target e.source) : Acyclic (e :: edges) := by
  intro i hi
  obtain ⟨k, ⟨d, hd, rfl, rfl⟩, hback⟩ := TransGen.head'_iff.mp hi
  rcases List.mem_cons.mp hd with rfl | hd
  · exact he ((leads_cons hback).elim id And.left)
  · rcases leads_cons hback with h | ⟨hto, hfrom⟩
    · exact ha d.source (TransGen.head' ⟨d, hd, rfl, rfl⟩ h)
    · exact he ((hfrom.tail ⟨d, hd, rfl, rfl⟩).trans hto)

/-- …and one whose target does lead there closes one. -/
theorem not_acyclic_cons {edges : List Edge} {e : Edge} (he : Leads edges e.target e.source) :
    ¬ Acyclic (e :: edges) := by
  intro ha
  refine ha e.source (TransGen.head' ⟨e, List.mem_cons_self, rfl, rfl⟩ ?_)
  exact ReflTransGen.mono (fun _ _ => Feeds.mono fun d => List.mem_cons_of_mem e) _ _ he

namespace Graph

/-! ## One round -/

theorem spread_cons (e : Edge) (edges : List Edge) (seen : List Nat) :
    spread (e :: edges) seen
      = spread edges (if e.source ∈ seen ∧ e.target ∉ seen then e.target :: seen else seen) := rfl

/-- A round only adds in front. -/
theorem suffix_spread (edges : List Edge) (seen : List Nat) : seen <:+ spread edges seen := by
  induction edges generalizing seen with
  | nil => exact List.suffix_refl seen
  | cons e edges ih =>
    rw [spread_cons]
    split
    · exact (List.suffix_cons e.target seen).trans (ih _)
    · exact ih seen

theorem nodup_spread {edges : List Edge} {seen : List Nat} (h : seen.Nodup) :
    (spread edges seen).Nodup := by
  induction edges generalizing seen with
  | nil => exact h
  | cons e edges ih =>
    rw [spread_cons]
    split
    · next he => exact ih (List.nodup_cons.mpr ⟨he.2, h⟩)
    · exact ih h

/-- What holds of all nodes seen, and passes along connections, holds of all nodes added. -/
theorem forall_mem_spread {P : Nat → Prop} {edges : List Edge} {seen : List Nat}
    (hstep : ∀ e ∈ edges, P e.source → P e.target) (hseen : ∀ i ∈ seen, P i) :
    ∀ i ∈ spread edges seen, P i := by
  induction edges generalizing seen with
  | nil => exact hseen
  | cons e edges ih =>
    rw [spread_cons]
    refine ih (fun d hd => hstep d (List.mem_cons_of_mem e hd)) ?_
    split
    · next he =>
      exact List.forall_mem_cons.mpr ⟨hstep e List.mem_cons_self (hseen _ he.1), hseen⟩
    · exact hseen

/-- Every connection that leaves a node seen has been followed. -/
theorem target_mem_spread {edges : List Edge} {seen : List Nat} {e : Edge} (he : e ∈ edges)
    (hs : e.source ∈ seen) : e.target ∈ spread edges seen := by
  induction edges generalizing seen with
  | nil => exact absurd he List.not_mem_nil
  | cons d edges ih =>
    rw [spread_cons]
    rcases List.mem_cons.mp he with rfl | he
    · refine (suffix_spread edges _).mem ?_
      by_cases ht : e.target ∈ seen
      · simp [ht]
      · simp [hs, ht]
    · refine ih he ?_
      split
      · exact List.mem_cons_of_mem _ hs
      · exact hs

/-! ## All rounds -/

theorem subset_closure (edges : List Edge) (rounds : Nat) (seen : List Nat) :
    ∀ i ∈ seen, i ∈ closure edges rounds seen := by
  induction rounds generalizing seen with
  | zero => exact fun i hi => hi
  | succ rounds ih =>
    intro i hi
    rw [closure]
    split
    · exact hi
    · exact ih _ i ((suffix_spread edges seen).mem hi)

theorem forall_mem_closure {P : Nat → Prop} {edges : List Edge}
    (hstep : ∀ e ∈ edges, P e.source → P e.target) {rounds : Nat} {seen : List Nat}
    (hseen : ∀ i ∈ seen, P i) : ∀ i ∈ closure edges rounds seen, P i := by
  induction rounds generalizing seen with
  | zero => exact hseen
  | succ rounds ih =>
    rw [closure]
    split
    · exact hseen
    · exact ih (forall_mem_spread hstep hseen)

/-- **With one round to spare for every connection, the search ends by itself**: what it returns is
closed under following connections. -/
theorem target_mem_closure {edges : List Edge} {i : Nat} {rounds : Nat} {seen : List Nat}
    (hnd : seen.Nodup) (hsub : ∀ j ∈ seen, j = i ∨ j ∈ edges.map Edge.target)
    (hlen : edges.length + 2 ≤ seen.length + rounds) {e : Edge} (he : e ∈ edges)
    (hs : e.source ∈ closure edges rounds seen) : e.target ∈ closure edges rounds seen := by
  induction rounds generalizing seen with
  | zero =>
    have hbound : seen.length ≤ (i :: edges.map Edge.target).length :=
      hnd.length_le_of_subset fun j hj => List.mem_cons.mpr (hsub j hj)
    simp only [List.length_cons, List.length_map] at hbound
    omega
  | succ rounds ih =>
    rw [closure] at hs ⊢
    split at hs
    · next hlen' =>
      rw [if_pos hlen']
      have hsame := (suffix_spread edges seen).eq_of_length hlen'.symm
      rw [hsame]
      exact target_mem_spread he hs
    · next hlen' =>
      rw [if_neg hlen']
      have hgrow := (suffix_spread edges seen).length_le
      refine ih (nodup_spread hnd) ?_ (by omega) hs
      refine forall_mem_spread (fun d hd _ => ?_) hsub
      exact Or.inr (List.mem_map_of_mem hd)

/-- **The search decides whether connections lead from one node to another.** -/
theorem reaches_iff (g : Graph) (i j : Nat) : g.reaches i j = true ↔ Leads g.edges i j := by
  rw [reaches, decide_eq_true_iff]
  constructor
  · refine forall_mem_closure (fun e he hi => ?_) ?_ j
    · exact hi.tail ⟨e, he, rfl, rfl⟩
    · exact fun k hk => List.mem_singleton.mp hk ▸ ReflTransGen.refl
  · intro h
    induction h with
    | refl => exact subset_closure _ _ _ i (List.mem_singleton_self i)
    | tail _ hstep ih =>
      obtain ⟨e, he, rfl, rfl⟩ := hstep
      refine target_mem_closure (i := i) (List.nodup_singleton i) (fun k hk => ?_) ?_ he ih
      · exact Or.inl (List.mem_singleton.mp hk)
      · simp only [List.length_singleton]
        omega

end Graph

end SpatialAudio
