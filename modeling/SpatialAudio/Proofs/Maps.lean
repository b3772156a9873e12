import SpatialAudio.Proofs.GivingUp
import SpatialAudio.Proofs.Listening
import SpatialAudio.Proofs.Marks

/-!
# Proofs/Maps — what becomes of the map of an amplitude panner

The map of an amplitude panner is put into effect when a layout is given to the panner, whoever gives
it: on demand (`arrange`), with a map that is rebuilt (`recomputeMap`), or in a block that the panner
asks in (`Happening.Lays`).  A block that is given up at the panner leaves the map that it asked for
waiting (`Happening.Refuses`).  `Remapped` says what each happening does to the map in effect, to the
map that waits and to the properties that describe a map; every happening does one of these
(`Happening.remapped`).
-/

namespace SpatialAudio

open SpatialAudio.Graph

/-! ## Layouts given and refused -/

/-- The nodes that a block for `id` comes to with its layouts: all that lead to its root, or those in
front of the one that is refused. -/
def Graph.reached (g : Graph) (id : NodeId) : List Nat :=
  match g.prepare id with
  | .ok (root, _, none) => g.pullOrder root
  | .ok (root, _, some (culprit, _)) => (g.pullOrder root).takeWhile (· ≠ culprit)
  | .error _ => []

namespace Happening

/-- The happening gives the node `x` the layout `l`. -/
def Lays (g : Graph) (x : NodeId) (l : Layout) : Happening → Prop
  | deed (.arrange id layout) => id = x ∧ layout = l ∧ ∃ g', g.applyLayout x l = .ok g'
  | deed (.recomputeMap id) => id = x ∧ ∃ n g', g.node x = .ok n ∧ mapLayout n.properties = l ∧
    (Graph.recomputeMap x).run g = (.ok (), g')
  | deed (.pull id) => (∃ g', g.pull id = .ok g') ∧ x.index ∈ g.reached id ∧
    ∃ n, g.node x = .ok n ∧ n.wants? = some l
  | _ => False

/-- The happening is a block that is given up because `x` cannot take the layout of the map `m`. -/
def Refuses (g : Graph) (x : NodeId) (m : ChannelMap) : Happening → Prop
  | deed (.pull id) => ∃ n e, g.node x = .ok n ∧ g.givesUp? id = some (x, e) ∧
    AmplitudePanner.describedMap n.properties = m
  | _ => False

/-- The happening decides about a map of `x`: it gives `x` a layout, is given up for want of one, or
rebuilds the map. -/
def Settles (g : Graph) (x : NodeId) (k : Happening) : Prop :=
  (∃ l, k.Lays g x l) ∨ (∃ m, k.Refuses g x m) ∨ k = .deed (.recomputeMap x)

end Happening

/-- What happened to the properties does not show in the map that they describe, as far as marks
tell. -/
def Node.Quiet (n n' : Node) : Prop :=
  n'.properties.anyModified AmplitudePanner.mapProperties = false →
    n.properties.anyModified AmplitudePanner.mapProperties = false ∧
      AmplitudePanner.describedMap n'.properties = AmplitudePanner.describedMap n.properties

/-- What becomes of the amplitude panner `q` of the node `x`. -/
inductive Remapped (g : Graph) (x : NodeId) (k : Happening) (n : Node) (q : AmplitudePanner)
    (n' : Node) : Prop
  /-- It is given a layout on demand, and a map that waits takes effect. -/
  | arranged {l : Layout} (hk : k = .deed (.arrange x l)) (hlays : k.Lays g x l)
      (hlayout : n'.layout = l) (hkind : n'.kind = .amplitudePanner q.commit)
      (hprops : n'.properties = n.properties)
  /-- It is given the layout of the map that its properties describe, which takes effect. -/
  | rebuilt (hlays : k.Lays g x (mapLayout n.properties))
      (hlayout : n'.layout = mapLayout n.properties) (hcurrent : Current n')
      (hmap : AmplitudePanner.describedMap n'.properties
        = AmplitudePanner.describedMap n.properties)
  /-- Its map was to be rebuilt, and its layout was refused. -/
  | discarded (hk : k = .deed (.recomputeMap x)) (hkind : n'.kind = .amplitudePanner q.discard)
      (hprops : n'.properties = n.properties)
  /-- A block is given up at it. -/
  | refused (hrefuses : k.Refuses g x (AmplitudePanner.describedMap n.properties))
      (hasks : n.Asks q) (hprops : n'.properties = n.properties)
      (hkind : n'.kind = .amplitudePanner
        { q with pending := some (AmplitudePanner.describedMap n.properties) })
  | left (hsettles : ¬ k.Settles g x) (hkind : n'.kind = n.kind)
      (hquiet : n.interior = none → n.Quiet n')

variable {g g' : Graph} {x id : NodeId} {n n' : Node} {q : AmplitudePanner} {l : Layout}
  {k : Happening}

/-! ## Properties that describe a map -/

theorem Properties.anyModified_eq_false {ps : Properties} {ids : List PropertyId} :
    ps.anyModified ids = false ↔ ∀ p ∈ ids, ps.mark? p ≠ some true := by
  have hwas : ∀ p, ps.wasModified p = true ↔ ps.mark? p = some true := by
    intro p
    rw [wasModified, mark?]
    cases ps.get? p <;> simp
  rw [anyModified, List.any_eq_false]
  exact forall₂_congr fun p _ => not_congr (hwas p)

theorem AmplitudePanner.describedMap_congr {ps qs : Properties}
    (h : ∀ p ∈ mapProperties, qs.value? p = ps.value? p) : describedMap qs = describedMap ps := by
  have hmap := h .channelMap (by decide)
  have hcenter := h .skipCenter (by decide)
  have hlfe := h .skipLfe (by decide)
  rw [Properties.value?, Properties.value?] at hmap hcenter hlfe
  rw [describedMap, describedMap, Properties.floatArray, Properties.floatArray, Properties.flag,
    Properties.flag, Properties.flag, Properties.flag, Properties.int, Properties.int, Properties.int,
    Properties.int, hmap, hcenter, hlfe]

theorem AmplitudePanner.describedMap_clearModified (ps : Properties) :
    describedMap ps.clearModified = describedMap ps :=
  describedMap_congr fun p _ => ps.value?_clearModified p

namespace Node

theorem Quiet.of_forall (h : ∀ p ∈ AmplitudePanner.mapProperties,
    n'.properties.mark? p ≠ some true →
      n.properties.mark? p ≠ some true ∧ n'.properties.value? p = n.properties.value? p) :
    n.Quiet n' := by
  intro hclean
  rw [Properties.anyModified_eq_false] at hclean ⊢
  exact ⟨fun p hp => (h p hp (hclean p hp)).1,
    AmplitudePanner.describedMap_congr fun p hp => (h p hp (hclean p hp)).2⟩

theorem Quiet.of_eq (h : n'.properties = n.properties) : n.Quiet n' :=
  .of_forall fun _ _ hmark => h ▸ ⟨h ▸ hmark, rfl⟩

theorem quiet_withObservers (n : Node) (phase : Phase) (p : PropertyId)
    (f : List Observer → List Observer) : n.Quiet (n.withObservers phase p f) := by
  refine .of_forall fun p' _ hmark => ⟨?_, n.value?_withObservers phase p p' f⟩
  rwa [n.mark?_withObservers phase p f] at hmark

/-- A value that is stored among those that describe a map leaves its mark. -/
theorem quiet_store (n : Node) (p : PropertyId) (v : PropertyValue) :
    n.Quiet { n with properties := n.properties.modify p (·.store v) } := by
  refine .of_forall fun p' _ hmark => ?_
  rw [Properties.mark?_store] at hmark
  rw [Properties.value?_store]
  by_cases hp : p = p'
  · rw [if_pos hp] at hmark ⊢
    have hnone : n.properties.get? p' = none := by
      rw [Properties.mark?, Option.map_map] at hmark
      cases hget : n.properties.get? p' with
      | none => rfl
      | some y => exact absurd (by rw [hget]; rfl) hmark
    rw [Properties.mark?, Properties.value?, hnone]
    exact ⟨fun h => (by cases h), rfl⟩
  · rw [if_neg hp] at hmark ⊢
    exact ⟨hmark, rfl⟩

end Node

/-! ## Layouts that a map needs -/

/-- **A map that is rebuilt is in effect with its layout.** -/
theorem Graph.node_of_recomputeMap (hrun : (Graph.recomputeMap x).run g = (.ok (), g')) :
    ∃ n q, g.node x = .ok n ∧ n.kind = .amplitudePanner q ∧
      g' = g.modifyAt x.index fun _ => rearrange (mapLayout n.properties) (staged q n) := by
  by_cases hex : ∃ n q, g.node x = .ok n ∧ n.kind = .amplitudePanner q
  · obtain ⟨n, q, hn, hk⟩ := hex
    refine ⟨n, q, hn, hk, ?_⟩
    rw [run_recomputeMap hn hk] at hrun
    split at hrun
    · next happly =>
      cases hrun
      obtain ⟨-, -, rfl⟩ := eq_of_applyLayout happly
      rw [modifyAt_modifyAt]
      rfl
    · cases hrun
  · obtain ⟨e, herror⟩ := run_recomputeMap_of_not fun n q hn hk => hex ⟨n, q, hn, hk⟩
    cases herror.symm.trans hrun

/-- A map that is not rebuilt leaves the panner without one that waits. -/
theorem Graph.node_of_recomputeMap_error {e : Failure} (hn : g.node x = .ok n)
    (hk : n.kind = .amplitudePanner q) (hrun : ((Graph.recomputeMap x).run g).1 = .error e) :
    ((Graph.recomputeMap x).run g).2
      = g.modifyAt x.index fun _ => { n with kind := .amplitudePanner q.discard } := by
  rw [run_recomputeMap hn hk] at hrun ⊢
  split at hrun
  · cases hrun
  · dsimp only
    rw [modifyAt_modifyAt]
    rfl

/-- An amplitude panner keeps its map in its turn. -/
theorem Graph.Turn.kind_eq {rate : Nat} {rings rings' : List Ring} {inputs : List Block}
    (h : Turn rate rings inputs n n' rings') (hk : n.kind = .amplitudePanner q) :
    n'.kind = n.kind := by
  cases hflag : n.properties.flag .suspended with
  | true => exact (h.suspended hflag).1
  | false =>
    obtain ⟨done, hdone, hkind, -⟩ := h.active hflag
    rw [hk] at hdone
    cases hdone
    exact hkind.trans hk.symm

/-! ## Blocks -/

section Blocks

variable {root culprit : Nat} {ready : Graph} {e : Error}

theorem Graph.reached_eq_pullOrder (hready : g.prepare id = .ok (root, ready, none)) :
    g.reached id = g.pullOrder root := by
  rw [reached, hready]

/-- The nodes in front of the one that is refused are those that were served. -/
theorem Graph.reached_eq_served {served : List Nat}
    (hready : g.prepare id = .ok (root, ready, some (culprit, e)))
    (hrefused : Refused (g.pullOrder root) g served culprit e ready)
    (hnd : (g.pullOrder root).Nodup) : g.reached id = served := by
  have hculprit := hrefused.notMem hnd
  obtain ⟨behind, hsplit⟩ := hrefused.split
  have hpass : ∀ j ∈ served, decide (j ≠ culprit) = true := fun j hj =>
    decide_eq_true (ne_of_mem_of_not_mem hj hculprit)
  rw [reached, hready]
  dsimp only
  rw [hsplit, List.takeWhile_append_of_pos hpass, List.takeWhile_cons_of_neg (by simp),
    List.append_nil]

theorem Happening.after_pull (hpull : g.pull id = .ok g') :
    (Happening.deed (.pull id)).after g = g' := by
  change ((GraphM.update fun g => g.pull id).run g).2 = g'
  rw [run_update, hpull]

theorem Happening.not_refuses_of_prepare {m : ChannelMap}
    (hready : g.prepare id = .ok (root, ready, none)) :
    ¬ (Happening.deed (.pull id)).Refuses g x m := by
  rintro ⟨-, e, -, hup, -⟩
  obtain ⟨_, _, _, hready', -⟩ := givesUp?_eq_some.mp hup
  cases hready.symm.trans hready'

theorem Happening.refuses_iff {m : ChannelMap}
    (hready : g.prepare id = .ok (root, ready, some (culprit, e))) (hn : g.node x = .ok n) :
    (Happening.deed (.pull id)).Refuses g x m ↔
      x.index = culprit ∧ AmplitudePanner.describedMap n.properties = m := by
  constructor
  · rintro ⟨n₁, e₁, hn₁, hup, hmap⟩
    cases hn.symm.trans hn₁
    obtain ⟨_, _, _, hready', rfl⟩ := givesUp?_eq_some.mp hup
    cases hready.symm.trans hready'
    exact ⟨rfl, hmap⟩
  · rintro ⟨rfl, hmap⟩
    refine ⟨n, e, hn, givesUp?_eq_some.mpr ⟨root, ready, _, hready, ?_⟩, hmap⟩
    exact (handleAt_of_node hn).symm

/-- A node that a block comes to has its map rebuilt if it asks. -/
theorem remapped_obliged {m : Node} (hpull : g.pull id = .ok g') (hn : g.node x = .ok n)
    (hq : n.kind = .amplitudePanner q) (hreached : x.index ∈ g.reached id)
    (hrefuses : ∀ m, ¬ (Happening.deed (.pull id)).Refuses g x m)
    (hm : m.kind = n.obliged.kind) (hlayout : m.layout = n.obliged.layout)
    (hmap : AmplitudePanner.describedMap m.properties = AmplitudePanner.describedMap n.properties)
    (hquiet : (∀ q, ¬ n.Asks q) → n.Quiet m) :
    Remapped g x (.deed (.pull id)) n q m := by
  cases hmod : n.properties.anyModified AmplitudePanner.mapProperties with
  | true =>
    have hasks : n.Asks q := ⟨hq, hmod⟩
    refine .rebuilt ⟨⟨g', hpull⟩, hreached, n, hn, hasks.wants?⟩
      (hlayout.trans hasks.layout_obliged) ?_ hmap
    rw [Current, hmap, hm, hasks.kind_obliged]
  | false =>
    have hasks : ∀ q', ¬ n.Asks q' := fun q' h => absurd (hmod.symm.trans h.2) (by decide)
    have hself : n.obliged = n := Node.obliged_of_unmarked hmod
    refine .left ?_ (hm.trans (by rw [hself])) fun _ => hquiet hasks
    rintro (⟨l, -, -, n₁, hn₁, hwants⟩ | ⟨m, hm⟩ | hk)
    · cases hn.symm.trans hn₁
      obtain ⟨q', hq', -⟩ := Node.wants?_eq_some.mp hwants
      exact hasks q' hq'
    · exact hrefuses m hm
    · cases hk

/-- What a block that is given up does to a map. -/
theorem Graph.Sound.remapped_refused (h : g.Sound) (hn : g.node x = .ok n)
    (hq : n.kind = .amplitudePanner q)
    (hready : g.prepare id = .ok (root, ready, some (culprit, e)))
    (hn' : ((Happening.deed (.pull id)).after g).node x = .ok n') :
    Remapped g x (.deed (.pull id)) n q n' := by
  obtain ⟨served, hrefused⟩ := h.refused_of_prepare hready
  have hnd := (h.proposeAll_of_prepare hready).1
  have hculprit := hrefused.notMem hnd
  have hreached := reached_eq_served hready hrefused hnd
  have hpull := pull_of_refused hready
  rw [Happening.after_pull hpull] at hn'
  have hview := nodeAt?_of_node hn'
  rw [nodeAt?_abandon, hrefused.nodes, nodeAt?_of_node hn, Option.map_some, Option.map_some] at hview
  have hrefuses := fun m => Happening.refuses_iff (m := m) hready hn
  -- falling silent leaves all but the outputs alone
  have hkeeps : ∀ {m : Node}, (if x.index = root then silenced m else m) = n' →
      n'.kind = m.kind ∧ n'.layout = m.layout ∧ n'.properties = m.properties := by
    rintro m rfl
    split <;> exact ⟨rfl, rfl, rfl⟩
  by_cases hserved : x.index ∈ served
  · rw [if_pos hserved] at hview
    obtain ⟨hkind, hlayout, hprops⟩ := hkeeps (Option.some.inj hview)
    rw [n.properties_obliged] at hprops
    exact remapped_obliged hpull hn hq (hreached ▸ hserved)
      (fun m hm => ne_of_mem_of_not_mem hserved hculprit ((hrefuses m).mp hm).1) hkind hlayout
      (by rw [hprops]) fun _ => .of_eq hprops
  · rw [if_neg hserved] at hview
    by_cases hx : x.index = culprit
    · obtain ⟨n₁, q₁, hn₁, hasks, -⟩ := hrefused.refused
      rw [← hx] at hn₁
      cases (nodeAt?_of_node hn).symm.trans hn₁
      cases hq.symm.trans hasks.1
      rw [if_pos hx, hasks.asking] at hview
      obtain ⟨hkind, -, hprops⟩ := hkeeps (Option.some.inj hview)
      exact .refused ((hrefuses _).mpr ⟨hx, rfl⟩) hasks hprops hkind
    · rw [if_neg hx] at hview
      obtain ⟨hkind, -, hprops⟩ := hkeeps (Option.some.inj hview)
      refine .left ?_ hkind fun _ => .of_eq hprops
      rintro (⟨l, -, hmem, -⟩ | ⟨m, hm⟩ | hk)
      · exact hserved (hreached ▸ hmem)
      · exact hx ((hrefuses m).mp hm).1
      · cases hk

theorem Graph.Sound.mem_pullOrder (h : g.Sound) (hready : g.prepare id = .ok (root, ready, none))
    {i : Nat} : i ∈ g.pullOrder root ↔ Leads g.edges i root := by
  obtain ⟨-, -, hpropose⟩ := prepare_eq_ok.mp hready
  have hschedule : ready.schedule = g.pullOrder root :=
    (beside_proposeAll hpropose).schedule.trans (h.begun root).schedule
  rw [← hschedule, (h.prepared hready).scheduled]

/-- **In a block that is played a node takes its turn with the layout that it asked for.** -/
theorem Graph.Sound.turn_obliged (h : g.Sound) (hready : g.prepare id = .ok (root, ready, none))
    (hpull : g.pull id = .ok g') (hn : g.node x = .ok n) (hn' : g'.node x = .ok n')
    (hleads : Leads g.edges x.index root) : ready.nodeAt? x.index = some n.obliged ∧
      ∃ rings rings', Turn g.sampleRate rings n'.inputs n.obliged n' rings' := by
  have heval : Evaluated g root ready g' := by
    rw [pull_eq_prepare, hready] at hpull
    exact (h.prepared hready).evaluated hpull
  obtain ⟨m, m', rings, rings', hm, hm', hturn, -⟩ := heval.computed _ hleads
  cases (nodeAt?_of_node hn').symm.trans hm'
  have hobliged : ready.nodeAt? x.index = some n.obliged := by
    rw [h.nodeAt?_of_prepare hready, nodeAt?_of_node hn, Option.map_some,
      if_pos ((h.mem_pullOrder hready).mpr hleads)]
  cases hobliged.symm.trans hm
  exact ⟨hobliged, rings, rings', hturn⟩

/-- What a block that is played does to a map. -/
theorem Graph.Sound.remapped_played (h : g.Sound) (hn : g.node x = .ok n)
    (hq : n.kind = .amplitudePanner q) (hready : g.prepare id = .ok (root, ready, none))
    (hpull : g.pull id = .ok g') (hn' : g'.node x = .ok n') :
    Remapped g x (.deed (.pull id)) n q n' := by
  have hrefuses := fun m => Happening.not_refuses_of_prepare (x := x) (m := m) hready
  have hreached : x.index ∈ g.reached id ↔ Leads g.edges x.index root := by
    rw [reached_eq_pullOrder hready, h.mem_pullOrder hready]
  by_cases hleads : Leads g.edges x.index root
  · obtain ⟨-, rings, rings', hturn⟩ := h.turn_obliged hready hpull hn hn' hleads
    obtain ⟨q₁, hq₁⟩ : ∃ q₁, n.obliged.kind = .amplitudePanner q₁ := by
      rcases n.asks_or_obliged_eq with ⟨q', hasks⟩ | hself
      · exact ⟨_, hasks.kind_obliged⟩
      · exact ⟨q, by rw [hself, hq]⟩
    have hprops : n'.properties = n.properties.clearModified := by
      rw [hturn.properties, n.properties_obliged]
    refine remapped_obliged hpull hn hq (hreached.mpr hleads) hrefuses (hturn.kind_eq hq₁)
      hturn.layout ?_ ?_
    · rw [hprops, AmplitudePanner.describedMap_clearModified]
    · intro hasks _
      refine ⟨Bool.eq_false_iff.mpr fun hmod => hasks q ⟨hq, hmod⟩, ?_⟩
      rw [hprops, AmplitudePanner.describedMap_clearModified]
  · have hunsettled : ¬ (Happening.deed (.pull id)).Settles g x := by
      rintro (⟨l, -, hmem, -⟩ | ⟨m, hm⟩ | hk)
      · exact hleads (hreached.mp hmem)
      · exact hrefuses m hm
      · cases hk
    obtain ⟨m', hm', hfate⟩ := h.exists_fate hpull hn
    cases hm'.symm.trans hn'
    cases hfate with
    | refused hready' => cases hready.symm.trans hready'
    | turn hready' hleads' =>
      cases hready.symm.trans hready'
      exact absurd hleads' hleads
    | around _ _ howns hunmarked =>
      subst hunmarked
      refine .left hunsettled rfl fun hinterior => ?_
      -- only a node with an interior loses its marks to others
      obtain ⟨i, -, howns⟩ := howns
      obtain ⟨m, hm, howner⟩ := Option.map_eq_some_iff.mp howns
      obtain ⟨-, o, ho, hsome⟩ := h.nested.owned _ m _ (node_handleAt.mpr hm) howner
      rw [handleAt_of_node hn] at ho
      cases hn.symm.trans ho
      exact absurd hinterior hsome
    | beside _ _ _ hsame =>
      subst hsame
      exact .left hunsettled rfl fun _ => .of_eq rfl

theorem Graph.Sound.remapped_pull (h : g.Sound) (hn : g.node x = .ok n)
    (hq : n.kind = .amplitudePanner q)
    (hn' : ((Happening.deed (.pull id)).after g).node x = .ok n') :
    Remapped g x (.deed (.pull id)) n q n' := by
  cases hpull : g.pull id with
  | error f =>
    change ((GraphM.update fun g => g.pull id).run g).2.node x = .ok n' at hn'
    rw [run_update, hpull] at hn'
    cases hn.symm.trans hn'
    refine .left ?_ rfl fun _ => .of_eq rfl
    rintro (⟨l, ⟨g', hok⟩, -⟩ | ⟨m, -, e, -, hup, -⟩ | hk)
    · cases hpull.symm.trans hok
    · obtain ⟨_, _, _, hready, -⟩ := givesUp?_eq_some.mp hup
      cases hpull.symm.trans (pull_of_refused hready)
    · cases hk
  | ok g' =>
    obtain ⟨⟨root, ready, refused⟩, hready, -⟩ :=
      bind_eq_ok.mp ((pull_eq_prepare g id).symm.trans hpull)
    cases refused with
    | some refusal => exact h.remapped_refused hn hq hready hn'
    | none =>
      rw [Happening.after_pull hpull] at hn'
      exact h.remapped_played hn hq hready hpull hn'

end Blocks

/-! ## Other happenings -/

theorem Graph.Sound.remapped_arrange (h : g.Sound) (hn : g.node x = .ok n)
    (hq : n.kind = .amplitudePanner q)
    (hn' : ((Happening.deed (.arrange id l)).after g).node x = .ok n') :
    Remapped g x (.deed (.arrange id l)) n q n' := by
  change ((GraphM.update fun g => g.applyLayout id l).run g).2.node x = .ok n' at hn'
  rw [run_update] at hn'
  have hleft : (id = x → ∀ g', g.applyLayout id l ≠ .ok g') →
      ¬ (Happening.deed (.arrange id l)).Settles g x := by
    rintro hnot (⟨l', rfl, rfl, g', happly⟩ | ⟨m, hm⟩ | hk)
    · exact hnot rfl g' happly
    · exact hm
    · cases hk
  cases happly : g.applyLayout id l with
  | error e =>
    rw [happly] at hn'
    cases hn.symm.trans hn'
    exact .left (hleft fun _ g' hok => by cases happly.symm.trans hok) rfl fun _ => .of_eq rfl
  | ok g' =>
    rw [happly] at hn'
    obtain ⟨m, hm, hw⟩ := h.exists_applyLayout happly
    by_cases hx : id = x
    · subst hx
      cases hn.symm.trans hm
      cases hw.self.symm.trans hn'
      refine .arranged rfl ⟨rfl, rfl, g', happly⟩ (rearrange_layout _ _) ?_ (rearrange_properties _ _)
      rw [rearrange_kind, hq]
      rfl
    · cases ((hw.other (Ne.symm hx)).trans hn).symm.trans hn'
      exact .left (hleft fun hid => absurd hid hx) rfl fun _ => .of_eq rfl

theorem Graph.remapped_recomputeMap (hn : g.node x = .ok n) (hq : n.kind = .amplitudePanner q)
    (hn' : ((Happening.deed (.recomputeMap x)).after g).node x = .ok n') :
    Remapped g x (.deed (.recomputeMap x)) n q n' := by
  change ((Graph.recomputeMap x).run g).2.node x = .ok n' at hn'
  rcases hrun : (Graph.recomputeMap x).run g with ⟨_ | _, g'⟩
  · rw [node_of_recomputeMap_error hn hq (congrArg Prod.fst hrun), node_modifyAt _ hn, if_pos rfl]
      at hn'
    cases hn'
    exact .discarded rfl rfl rfl
  · obtain ⟨m, q', hm, hq', rfl⟩ := node_of_recomputeMap hrun
    cases hn.symm.trans hm
    rw [hrun, node_modifyAt _ hn, if_pos rfl] at hn'
    cases hn'
    refine .rebuilt ⟨rfl, n, _, hn, rfl, hrun⟩ (rearrange_layout _ _)
      (current_rearrange_staged q' n _) ?_
    rw [rearrange_properties]
    rfl

/-- The happening gives a layout, rebuilds a map or is a block. -/
def Happening.lays : Happening → Bool
  | deed (.arrange ..) | deed (.recomputeMap _) | deed (.pull _) => true
  | _ => false

theorem Happening.not_settles (hk : k.lays = false) : ¬ k.Settles g x := by
  rintro (⟨l, hl⟩ | ⟨m, hm⟩ | rfl)
  · cases k with
    | deed d => cases d <;> first | exact hl | cases hk
    | _ => exact hl
  · cases k with
    | deed d => cases d <;> first | exact hm | cases hk
    | _ => exact hm
  · cases hk

/-- **What every happening does to the map of an amplitude panner.** -/
theorem Happening.remapped (h : g.Sound) (k : Happening) (hn : g.node x = .ok n)
    (hq : n.kind = .amplitudePanner q) (hn' : (k.after g).node x = .ok n') :
    Remapped g x k n q n' := by
  cases hlays : k.lays with
  | false =>
    have hunsettled : ¬ k.Settles g x := not_settles hlays
    rcases k.same_or_touches h hn hn' with rfl | htouched
    · exact .left hunsettled rfl fun _ => .of_eq rfl
    cases k with
    | taken phase id p =>
      obtain ⟨-, rfl⟩ := htouched
      exact .left hunsettled rfl fun _ => n.quiet_withObservers phase p _
    | restored phase id p os =>
      obtain ⟨-, rfl⟩ := htouched
      exact .left hunsettled rfl fun _ => n.quiet_withObservers phase p _
    | stored id p v =>
      obtain ⟨-, rfl⟩ := htouched
      exact .left hunsettled rfl fun _ => n.quiet_store p v
    | deed d =>
      cases d with
      | observe phase id p o =>
        obtain ⟨-, rfl⟩ := htouched
        exact .left hunsettled rfl fun _ => n.quiet_withObservers phase p _
      | markRecompute id =>
        obtain ⟨-, q', hq', -⟩ := htouched
        cases hq.symm.trans hq'
      | adopt id strategy =>
        obtain ⟨-, m, hm, -⟩ := htouched
        cases hq.symm.trans hm
      | arrange | recomputeMap | pull => cases hlays
      | _ => exact htouched.elim
  | true =>
    cases k with
    | deed d =>
      cases d with
      | arrange id l => exact h.remapped_arrange hn hq hn'
      | pull id => exact h.remapped_pull hn hq hn'
      | recomputeMap id =>
        by_cases hx : id = x
        · subst hx
          exact remapped_recomputeMap hn hq hn'
        · rcases Happening.same_or_touches h _ hn hn' with rfl | htouched
          · refine .left ?_ rfl fun _ => .of_eq rfl
            rintro (⟨l, rfl, -⟩ | ⟨m, hm⟩ | hk)
            · exact hx rfl
            · exact hm
            · cases hk
              exact hx rfl
          · exact absurd htouched.1 hx
      | _ => cases hlays
    | _ => cases hlays

end SpatialAudio
