import Mathlib.Data.List.Induction
import SpatialAudio.Proofs.Fates

/-!
# Proofs/Marks — a mark means: stored since a block last took it up

A property is marked when a value is stored in it.  A block that is not given up **consumes** the
marks of the nodes it processes and of the subgraph nodes around them (`Happening.Consumes`); nothing
else that happens to a node writes its marks (`Happening.mark?_eq`).  So the mark of a property tells
its history: it is set if and only if the history has the value being stored, with the node alive
ever since and no block that consumed its marks (`mark?_iff_storedSince`).
-/

namespace SpatialAudio

open Relation SpatialAudio.Graph

/-! ## The marks of properties -/

namespace Properties

variable {ps : Properties} {p q : PropertyId}

/-- Whether a property is marked, if there is one. -/
def mark? (ps : Properties) (p : PropertyId) : Option Bool := (ps.get? p).map Property.modified

theorem mark?_modify {f : Property → Property} (hf : ∀ x, (f x).modified = x.modified) :
    (ps.modify p f).mark? q = ps.mark? q := map_get?_modify hf

theorem mark?_store (v : PropertyValue) :
    (ps.modify p (·.store v)).mark? q = if p = q then (ps.mark? q).map fun _ => true else ps.mark? q := by
  rw [mark?, mark?, get?_modify]
  split
  · rw [Option.map_map, Option.map_map]
    rfl
  · rfl

theorem get?_clearModified (ps : Properties) (p : PropertyId) :
    ps.clearModified.get? p = (ps.get? p).map fun x => { x with modified := false } := by
  obtain ⟨entries⟩ := ps
  simp only [get?, clearModified]
  induction entries with
  | nil => rfl
  | cons e entries ih => by_cases h : e.1 = p <;> simp_all

theorem mark?_clearModified (ps : Properties) (p : PropertyId) :
    ps.clearModified.mark? p = (ps.mark? p).map fun _ => false := by
  rw [mark?, mark?, get?_clearModified, Option.map_map, Option.map_map]
  rfl

end Properties

theorem Property.modified_setObservers (x : Property) (phase : Phase) (os : List Observer) :
    (x.setObservers phase os).modified = x.modified := by
  cases phase <;> rfl

namespace Node

variable {n n' : Node} {p : PropertyId}

theorem mark?_withObservers (n : Node) (phase : Phase) (q : PropertyId)
    (f : List Observer → List Observer) :
    (n.withObservers phase q f).properties.mark? p = n.properties.mark? p :=
  Properties.mark?_modify fun x => x.modified_setObservers _ _

theorem mark?_of_newborn (h : n.Newborn) {b : Bool} (hb : n.properties.mark? p = some b) :
    b = false := by
  obtain ⟨registrations, hps⟩ := h
  have hinitial : n.kind.properties.mark? p = (n.kind.properties.mark? p).map fun _ => false := by
    have hclear : n.kind.properties.clearModified = n.kind.properties := by cases n.kind <;> rfl
    rw [← Properties.mark?_clearModified, hclear]
  have hsame : n.properties.mark? p = n.kind.properties.mark? p := by
    rw [hps]
    clear hps hinitial hb
    generalize n.kind.properties = ps
    induction registrations generalizing ps with
    | nil => rfl
    | cons r rest ih =>
      rw [List.foldl_cons, ih]
      exact Properties.mark?_modify fun x => x.modified_setObservers _ _
  rw [hsame, hinitial] at hb
  obtain ⟨-, -, hb⟩ := Option.map_eq_some_iff.mp hb
  exact hb.symm

end Node

/-! ## Blocks that consume marks -/

/-- The deed is a block that is not given up and that processes the node, or a node that is private
to it through however many owners. -/
def Deed.Consumes {α : Type} (g : Graph) (x : NodeId) : Deed α → Prop
  | .pull id => (∃ g', g.pull id = .ok g') ∧ ∃ root ready, g.prepare id = .ok (root, ready, none) ∧
    ∃ i, Leads g.edges i root ∧ (i = x.index ∨ TransGen g.Owns x.index i)
  | _ => False

/-- The happening is such a block. -/
def Happening.Consumes (g : Graph) (x : NodeId) : Happening → Prop
  | deed d => d.Consumes g x
  | _ => False

variable {g g' : Graph} {x id : NodeId} {n n' : Node} {p : PropertyId}

/-- Subgraphs are nested one deep, so a chain of owners has one. -/
theorem Graph.Nested.transGen_owns (h : g.Nested) {j i : Nat} :
    TransGen g.Owns j i ↔ g.Owns j i := by
  refine ⟨fun hchain => ?_, .single⟩
  cases hchain with
  | single howns => exact howns
  | tail hchain howns =>
    exfalso
    obtain ⟨k, howns'⟩ : ∃ k, g.Owns k _ := by
      cases hchain with
      | single h' => exact ⟨_, h'⟩
      | tail _ h' => exact ⟨_, h'⟩
    obtain ⟨m, hm, howner⟩ := Option.map_eq_some_iff.mp howns
    obtain ⟨o, ho, howner'⟩ := Option.map_eq_some_iff.mp howns'
    obtain ⟨-, m', hm', hsub⟩ := h.owned _ m _ (node_handleAt.mpr hm) howner
    obtain rfl : m' = o := Option.some.inj ((nodeAt?_of_node hm').symm.trans ho)
    exact hsub (h.owned _ m' _ hm' howner').1

theorem Deed.consumes_pull (h : g.Sound) {root : Nat} {ready : Graph} (hpull : g.pull id = .ok g')
    (hready : g.prepare id = .ok (root, ready, none)) :
    (Deed.pull id).Consumes g x ↔
      Leads g.edges x.index root ∨ ∃ i, Leads g.edges i root ∧ g.Owns x.index i := by
  simp only [Consumes, h.nested.transGen_owns]
  constructor
  · rintro ⟨-, root', ready', hready', i, hi, rfl | howns⟩
    · cases hready.symm.trans hready'
      exact .inl hi
    · cases hready.symm.trans hready'
      exact .inr ⟨i, hi, howns⟩
  · rintro (hleads | ⟨i, hi, howns⟩)
    · exact ⟨⟨g', hpull⟩, root, ready, hready, _, hleads, .inl rfl⟩
    · exact ⟨⟨g', hpull⟩, root, ready, hready, i, hi, .inr howns⟩

theorem Fate.mark?_eq (h : g.Sound) (hpull : g.pull id = .ok g') (hfate : Fate g id x n n') :
    ((Deed.pull id).Consumes g x →
        n'.properties.mark? p = (n.properties.mark? p).map fun _ => false) ∧
      (¬ (Deed.pull id).Consumes g x → n'.properties.mark? p = n.properties.mark? p) := by
  cases hfate with
  | refused hready hbides =>
    refine ⟨?_, fun _ => by rw [hbides.properties]⟩
    rintro ⟨-, root, ready, hready', -⟩
    cases hready.symm.trans hready'
  | turn hready hleads hbides hturn =>
    rw [Deed.consumes_pull h hpull hready, hturn.properties, hbides.properties,
      Properties.mark?_clearModified]
    exact ⟨fun _ => rfl, fun hnot => absurd (.inl hleads) hnot⟩
  | around hready _ howns hn' =>
    subst hn'
    rw [Deed.consumes_pull h hpull hready]
    exact ⟨fun _ => Properties.mark?_clearModified _ _, fun hnot => absurd (.inr howns) hnot⟩
  | beside hready hleads howns hn' =>
    subst hn'
    rw [Deed.consumes_pull h hpull hready]
    exact ⟨fun hor => absurd hor (not_or.mpr ⟨hleads, howns⟩), fun _ => rfl⟩

/-! ## What a happening does to a mark -/

theorem Happening.mark?_of_stored (v : PropertyValue) (hn : g.node x = .ok n)
    (hn' : ((Happening.stored x p v).after g).node x = .ok n') :
    n'.properties.mark? p = (n.properties.mark? p).map fun _ => true := by
  rw [Happening.after, modifyProperty_of_node hn, node_modifyAt _ hn, if_pos rfl] at hn'
  cases hn'
  rw [Properties.mark?_store, if_pos rfl]

theorem Happening.mark?_of_consumes (h : g.Sound) {k : Happening} (hk : k.Consumes g x)
    (hn : g.node x = .ok n) (hn' : (k.after g).node x = .ok n') :
    n'.properties.mark? p = (n.properties.mark? p).map fun _ => false := by
  cases k with
  | deed d =>
    cases d with
    | pull id =>
      obtain ⟨g', hpull⟩ := hk.1
      have hafter : (Happening.deed (.pull id)).after g = g' := by
        change ((GraphM.update fun g => g.pull id).run g).2 = g'
        rw [run_update, hpull]
      rw [hafter] at hn'
      obtain ⟨m, hm, hfate⟩ := h.exists_fate hpull hn
      cases hm.symm.trans hn'
      exact (hfate.mark?_eq h hpull).1 hk
    | _ => exact hk.elim
  | _ => exact hk.elim

/-- **Only a value that is stored there and a block that consumes it change a mark.** -/
theorem Happening.mark?_eq (h : g.Sound) {k : Happening} (hstored : ∀ v, k ≠ .stored x p v)
    (hk : ¬ k.Consumes g x) (hn : g.node x = .ok n) (hn' : (k.after g).node x = .ok n') :
    n'.properties.mark? p = n.properties.mark? p := by
  rcases k.same_or_touches h hn hn' with rfl | htouched
  · rfl
  cases k with
  | deed d =>
    cases d with
    | arrange id layout =>
      obtain ⟨-, rfl⟩ := htouched
      rw [rearrange_properties]
    | observe phase id q o =>
      obtain ⟨-, rfl⟩ := htouched
      exact n.mark?_withObservers _ _ _
    | recomputeMap id => rw [htouched.2.1]
    | markRecompute id =>
      obtain ⟨-, q, -, rfl⟩ := htouched
      rfl
    | adopt id strategy =>
      obtain ⟨-, m, -, rfl⟩ := htouched
      rfl
    | pull id =>
      obtain ⟨⟨g', hpull⟩, hfate⟩ := htouched
      exact (hfate.mark?_eq h hpull).2 hk
    | _ => exact htouched.elim
  | taken phase id q =>
    obtain ⟨-, rfl⟩ := htouched
    exact n.mark?_withObservers _ _ _
  | restored phase id q os =>
    obtain ⟨-, rfl⟩ := htouched
    exact n.mark?_withObservers _ _ _
  | stored id q v =>
    obtain ⟨rfl, rfl⟩ := htouched
    rw [Properties.mark?_store, if_neg]
    rintro rfl
    exact hstored v rfl

/-! ## Marks and histories -/

/-- The node lives on through happenings, and no block among them consumes its marks. -/
def Unheeded (x : NodeId) : Graph → List Happening → Prop
  | g, [] => g.contains x = true
  | g, k :: ks => g.contains x = true ∧ ¬ k.Consumes g x ∧ Unheeded x (k.after g) ks

/-- The history has a value being stored in the property, with the node alive and unheeded since. -/
def StoredSince (x : NodeId) (p : PropertyId) (g : Graph) (hs : List Happening) : Prop :=
  ∃ before v since, hs = before ++ .stored x p v :: since ∧
    Unheeded x (replay g before) (.stored x p v :: since)

theorem unheeded_concat {ks : List Happening} {k : Happening} :
    Unheeded x g (ks ++ [k]) ↔
      Unheeded x g ks ∧ ¬ k.Consumes (replay g ks) x ∧
        (k.after (replay g ks)).contains x = true := by
  induction ks generalizing g with
  | nil => exact Iff.rfl
  | cons k' ks ih =>
    rw [List.cons_append, Unheeded, ih, Unheeded, replay_cons]
    simp only [and_assoc]

theorem Unheeded.contains {ks : List Happening} (h : Unheeded x g ks) :
    (replay g ks).contains x = true := by
  induction ks generalizing g with
  | nil => exact h
  | cons k ks ih => exact ih h.2.2

/-- One happening more: it stores the value, or what was stored is still unheeded. -/
theorem storedSince_concat {hs : List Happening} {k : Happening}
    (hk : (k.after (replay g hs)).contains x = true) :
    StoredSince x p g (hs ++ [k]) ↔
      (∃ v, k = .stored x p v) ∧ (replay g hs).contains x = true ∨
        StoredSince x p g hs ∧ ¬ k.Consumes (replay g hs) x := by
  constructor
  · rintro ⟨before, v, since, heq, hsince⟩
    rcases List.eq_nil_or_concat since with rfl | ⟨since, last, rfl⟩
    · obtain ⟨rfl, hlast⟩ := List.append_inj' heq rfl
      cases hlast
      exact .inl ⟨⟨v, rfl⟩, hsince.1⟩
    · rw [List.concat_eq_append, ← List.cons_append, ← List.append_assoc] at heq
      rw [List.concat_eq_append, ← List.cons_append, unheeded_concat] at hsince
      obtain ⟨rfl, hlast⟩ := List.append_inj' heq rfl
      cases hlast
      rw [← replay_append] at hsince
      exact .inr ⟨⟨before, v, since, rfl, hsince.1⟩, hsince.2.1⟩
  · rintro (⟨⟨v, rfl⟩, halive⟩ | ⟨⟨before, v, since, rfl, hsince⟩, hnot⟩)
    · exact ⟨hs, v, [], rfl, halive, id, hk⟩
    · refine ⟨before, v, since ++ [k], by rw [List.append_assoc, List.cons_append], ?_⟩
      rw [← List.cons_append, unheeded_concat, ← replay_append]
      exact ⟨hsince, hnot, hk⟩

/-- **A mark tells the history of its property.** -/
theorem mark?_iff_storedSince (h : g.Sound) (hempty : ∀ x n, g.node x ≠ .ok n)
    (hs : List Happening) {b : Bool} (hn : (replay g hs).node x = .ok n)
    (hb : n.properties.mark? p = some b) : b = true ↔ StoredSince x p g hs := by
  induction hs using List.reverseRecOn generalizing n b with
  | nil => exact absurd hn (hempty x n)
  | append_singleton hs k ih =>
    have hsound := h.replay hs
    have hafter : replay g (hs ++ [k]) = k.after (replay g hs) := by rw [replay_append]; rfl
    rw [hafter] at hn
    rw [storedSince_concat (contains_iff.mpr ⟨n, hn⟩)]
    rcases k.origin hsound hn with ⟨m, hm, -⟩ | ⟨hnew, hborn⟩
    · have halive : (replay g hs).contains x = true := contains_iff.mpr ⟨m, hm⟩
      by_cases hstored : ∃ v, k = .stored x p v
      · obtain ⟨v, rfl⟩ := hstored
        rw [Happening.mark?_of_stored v hm hn] at hb
        obtain ⟨-, -, rfl⟩ := Option.map_eq_some_iff.mp hb
        exact ⟨fun _ => .inl ⟨⟨v, rfl⟩, halive⟩, fun _ => rfl⟩
      · by_cases hconsumes : k.Consumes (replay g hs) x
        · rw [Happening.mark?_of_consumes hsound hconsumes hm hn] at hb
          obtain ⟨-, -, rfl⟩ := Option.map_eq_some_iff.mp hb
          simp [hstored, hconsumes]
        · rw [Happening.mark?_eq hsound (fun v hv => hstored ⟨v, hv⟩) hconsumes hm hn] at hb
          rw [ih hm hb]
          simp [hstored, hconsumes]
    · have hdead : (replay g hs).contains x ≠ true := fun hx => by
        obtain ⟨m, hm⟩ := contains_iff.mp hx
        exact hnew m hm
      cases Node.mark?_of_newborn hborn hb
      refine ⟨fun hf => (nomatch hf), ?_⟩
      rintro (⟨-, halive⟩ | ⟨⟨before, v, since, rfl, hsince⟩, -⟩)
      · exact absurd halive hdead
      · refine absurd ?_ hdead
        rw [replay_append]
        exact hsince.contains

/-! ## Sessions -/

theorem run_change_invalid {s : Session} {v : PropertyValue} {e : Error} (depth : Nat)
    (hv : (s.graph.property x p >>= fun y => y.validate p v) = .error e) :
    (change (depth + 1) x p v).run s = (.error (.refused e), s) := by
  rw [change, setWith]
  exact run_bind_error (run_read_error hv)

theorem run_change_vetoed {s s' : Session} {v : PropertyValue} {e : Failure} {depth : Nat}
    (hv : (s.graph.property x p >>= fun y => y.validate p v) = .ok ())
    (hveto : (notify (react (change depth)) .before ⟨x, p, some v⟩).run s = (.error e, s')) :
    (change (depth + 1) x p v).run s = (.error e, s') := by
  rw [change, setWith, run_bind_ok (run_read_ok hv)]
  exact run_bind_error hveto

/-- **A property is marked if and only if it was stored since a block last consumed its marks**, at
every moment of every session. -/
theorem modified_iff_storedSince (rate capacity : Nat) (steps : List Step) :
    (∀ hs, hs <+: ((Session.new rate capacity).tale steps).happenings → ∀ x p y,
      (replay (Graph.new rate capacity) hs).property x p = .ok y →
        (y.modified = true ↔ StoredSince x p (Graph.new rate capacity) hs)) ∧
    -- whatever else happens leaves a mark alone
    (∀ hs k, hs ++ [k] <+: ((Session.new rate capacity).tale steps).happenings → ∀ x p y y',
      (replay (Graph.new rate capacity) hs).property x p = .ok y →
      (replay (Graph.new rate capacity) (hs ++ [k])).property x p = .ok y' →
      (∀ v, k ≠ .stored x p v) → ¬ k.Consumes (replay (Graph.new rate capacity) hs) x →
        y'.modified = y.modified) ∧
    -- a value that is not valid leaves everything alone, and one that is vetoed leaves what the
    -- observers did that were told of it
    (∀ depth s x p v e, (s.graph.property x p >>= fun y => y.validate p v) = .error e →
      (change (depth + 1) x p v).run s = (.error (.refused e), s)) ∧
    (∀ depth s s' x p v e, (s.graph.property x p >>= fun y => y.validate p v) = .ok () →
      (notify (react (change depth)) .before ⟨x, p, some v⟩).run s = (.error e, s') →
        (change (depth + 1) x p v).run s = (.error e, s')) := by
  have hmark : ∀ {g : Graph} {x p y}, g.property x p = .ok y →
      ∃ n, g.node x = .ok n ∧ n.properties.mark? p = some y.modified := by
    intro g x p y hy
    obtain ⟨n, hn, hget⟩ := property_eq_ok.mp hy
    exact ⟨n, hn, congrArg (Option.map Property.modified) hget⟩
  have hsound := sound_new rate capacity
  refine ⟨fun hs _ x p y hy => ?_, fun hs k _ x p y y' hy hy' hstored hk => ?_,
    fun depth s x p v e => run_change_invalid depth, fun depth s s' x p v e => run_change_vetoed⟩
  · obtain ⟨n, hn, hb⟩ := hmark hy
    refine mark?_iff_storedSince hsound (fun x n hn => ?_) hs hn hb
    exact absurd ((node_eq_ok_iff _ _ _).mp hn) (by simp [Graph.new])
  · obtain ⟨n, hn, hb⟩ := hmark hy
    obtain ⟨n', hn', hb'⟩ := hmark hy'
    rw [replay_append] at hn'
    rw [Happening.mark?_eq (hsound.replay hs) hstored hk hn hn', hb] at hb'
    exact (Option.some.inj hb').symm

/-- A gain that is set to two, plays a block, and is given an offset. -/
def gainThenOffset : List Step :=
  [.command (.associate "gain" .gain (.symmetric 1)),
    .command (.set "gain" .mul (.float 2)),
    .process "gain" 1,
    .command (.set "gain" .add (.float 1))]

theorem marks_gainThenOffset :
    ((((Session.new 44100 64).afterSteps gainThenOffset).graph.property ⟨0, 0⟩ .mul).toOption.map
      Property.modified) = some false ∧
    ((((Session.new 44100 64).afterSteps gainThenOffset).graph.property ⟨0, 0⟩ .add).toOption.map
      Property.modified) = some true := by
  decide +kernel

theorem modified_iff_storedSince_gainThenOffset :
    ¬ StoredSince ⟨0, 0⟩ .mul (Graph.new 44100 64)
        ((Session.new 44100 64).tale gainThenOffset).happenings ∧
      StoredSince ⟨0, 0⟩ .add (Graph.new 44100 64)
        ((Session.new 44100 64).tale gainThenOffset).happenings := by
  obtain ⟨hmul, hadd⟩ := marks_gainThenOffset
  obtain ⟨y, hy, hmul⟩ := map_toOption_eq_some.mp hmul
  obtain ⟨y', hy', hadd⟩ := map_toOption_eq_some.mp hadd
  rw [← replay_tale] at hy hy'
  obtain ⟨hiff, -⟩ := modified_iff_storedSince 44100 64 gainThenOffset
  refine ⟨fun hsince => ?_, (hiff _ List.prefix_rfl _ _ y' hy').mp hadd⟩
  rw [← hiff _ List.prefix_rfl _ _ y hy, hmul] at hsince
  cases hsince

end SpatialAudio
