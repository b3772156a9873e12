import SpatialAudio.Proofs.Fates

/-!
# Proofs/Validity — stored values are valid throughout a session

A value is checked before the observers of the phase before run, and stored after them.  They may do
anything in between, even remove the node and put another one into its slot.  But the range that a
value was checked against is that of its property, whichever node carries it (`PropertyId.range`).
So every deed keeps the values of nodes that stay and makes new ones with valid values
(`Deed.adds`), and what is stored is valid wherever it goes (`lasting_tidy`).

The map that an amplitude panner stages therefore has at most sixteen outputs, and its layout is
refused only where a connection does not fit (`Error.Misfit`).
-/

namespace SpatialAudio

/-! ## What stays of properties -/

/-- A property without its mark and its observers. -/
def Property.bare (x : Property) : Property := { x with modified := false, before := [], after := [] }

@[simp] theorem Property.bare_setObservers (x : Property) (phase : Phase) (os : List Observer) :
    (x.setObservers phase os).bare = x.bare := by
  cases phase <;> rfl

namespace Properties

variable {ps qs : Properties} {p : PropertyId} {f : Property → Property}

/-- The properties without marks and observers. -/
def bare (ps : Properties) : Properties := ⟨ps.entries.map fun e => (e.1, e.2.bare)⟩

theorem bare_modify (hf : ∀ x : Property, (f x).bare = x.bare) : (ps.modify p f).bare = ps.bare := by
  simp only [bare, modify, List.map_map]
  congr 1
  refine List.map_congr_left fun e _ => ?_
  simp only [Function.comp_apply]
  split
  · rw [hf]
  · rfl

theorem bare_clearModified (ps : Properties) : ps.clearModified.bare = ps.bare := by
  simp only [bare, clearModified, List.map_map]
  rfl

theorem bare_of_clearModified (h : ps.clearModified = qs.clearModified) : ps.bare = qs.bare := by
  rw [← bare_clearModified, h, bare_clearModified]

theorem declaration_bare (ps : Properties) : ps.bare.declaration = ps.declaration := by
  simp only [bare, declaration, List.map_map]
  rfl

theorem declaration_store (ps : Properties) (p : PropertyId) (v : PropertyValue) :
    (ps.modify p (·.store v)).declaration = ps.declaration := by
  simp only [modify, declaration, List.map_map]
  refine List.map_congr_left fun e _ => ?_
  simp only [Function.comp_apply]
  split <;> rfl

/-- Every value is one that its range admits. -/
def Admitted (ps : Properties) : Prop := ∀ e ∈ ps.entries, e.2.range.Admits e.2.value

theorem admitted_bare : ps.bare.Admitted ↔ ps.Admitted := by
  simp only [Admitted, bare, List.forall_mem_map]
  rfl

end Properties

/-! ## Nodes -/

namespace Node

/-- The node has the properties of its kind, in their order, and every value is admitted. -/
structure Valid (n : Node) : Prop where
  declared : n.properties.declaration = n.kind.properties.declaration
  admitted : n.properties.Admitted

/-- A node of the same type whose properties have the same values. -/
structure Resembles (n n' : Node) : Prop where
  type : n'.kind.type = n.kind.type
  bare : n'.properties.bare = n.properties.bare

variable {n n' n'' : Node}

theorem Resembles.refl (n : Node) : n.Resembles n := ⟨rfl, rfl⟩

theorem Resembles.trans (h : n.Resembles n') (h' : n'.Resembles n'') : n.Resembles n'' :=
  ⟨h'.type.trans h.type, h'.bare.trans h.bare⟩

theorem Resembles.declaration (h : n.Resembles n') :
    n'.properties.declaration = n.properties.declaration := by
  rw [← Properties.declaration_bare, h.bare, Properties.declaration_bare]

theorem Played.resembles (h : n.Played n') : n.Resembles n' :=
  ⟨h.type, Properties.bare_of_clearModified h.properties⟩

theorem Bides.resembles (h : n.Bides n') : n.Resembles n' :=
  ⟨h.type, congrArg Properties.bare h.properties⟩

theorem resembles_layoutApplied (n : Node) :
    n.Resembles { n with kind := n.kind.layoutApplied } := ⟨n.kind.type_layoutApplied, rfl⟩

theorem resembles_arrange (l : Layout) (n : Node) : n.Resembles (Graph.arrange l n) :=
  ⟨n.kind.type_layoutApplied, rfl⟩

theorem resembles_rearrange (l : Layout) (n : Node) : n.Resembles (Graph.rearrange l n) := by
  rw [Graph.rearrange]
  split
  · exact n.resembles_layoutApplied
  · exact n.resembles_arrange l

theorem resembles_withObservers (n : Node) (phase : Phase) (p : PropertyId)
    (f : List Observer → List Observer) : n.Resembles (n.withObservers phase p f) :=
  ⟨rfl, Properties.bare_modify fun x => x.bare_setObservers _ _⟩

theorem Valid.resembles (h : n.Valid) (hr : n.Resembles n') : n'.Valid where
  declared := by rw [hr.declaration, h.declared, NodeKind.properties_congr hr.type]
  admitted := by
    rw [← Properties.admitted_bare, hr.bare, Properties.admitted_bare]
    exact h.admitted

theorem Newborn.bare (h : n.Newborn) : n.properties.bare = n.kind.properties.bare := by
  obtain ⟨registrations, hps⟩ := h
  rw [hps]
  clear hps
  generalize n.kind.properties = ps
  induction registrations generalizing ps with
  | nil => rfl
  | cons r rest ih =>
    rw [List.foldl_cons, ih]
    exact Properties.bare_modify fun x => x.bare_setObservers _ _

/-- A node with what its kind starts with is valid. -/
theorem valid_of_bare (h : n.properties.bare = n.kind.properties.bare) : n.Valid where
  declared := by rw [← Properties.declaration_bare, h, Properties.declaration_bare]
  admitted := by
    rw [← Properties.admitted_bare, h, Properties.admitted_bare]
    intro e he
    obtain ⟨hrange, hdefault, hvalue⟩ := n.kind.initial_properties e he
    rw [hrange, hvalue]
    exact hdefault

/-- **The ranges and defaults of a valid node are those of its properties.** -/
theorem Valid.declared_of_mem (h : n.Valid) {e : PropertyId × Property}
    (he : e ∈ n.properties.entries) : e.2.range = e.1.range ∧ e.1.range.Admits e.2.default := by
  have hmem : (e.1, e.2.declared) ∈ n.kind.properties.declaration := by
    rw [← h.declared]
    exact List.mem_map.mpr ⟨e, he, rfl⟩
  obtain ⟨d, hd, heq⟩ := List.mem_map.mp hmem
  simp only [Property.declared, Prod.mk.injEq] at heq
  obtain ⟨hid, -, hdefault, hrange⟩ := heq
  obtain ⟨hdrange, hddefault, -⟩ := n.kind.initial_properties d hd
  rw [← hid, ← hdefault, ← hrange]
  exact ⟨hdrange, hddefault⟩

theorem Valid.store (h : n.Valid) {p : PropertyId} {v : PropertyValue} (hv : p.range.Admits v) :
    Valid { n with properties := n.properties.modify p (·.store v) } where
  declared := (Properties.declaration_store _ _ _).trans h.declared
  admitted := by
    intro e he
    obtain ⟨d, hd, rfl⟩ := List.mem_map.mp he
    split
    · next hp =>
      change d.2.range.Admits v
      rw [(h.declared_of_mem hd).1, hp]
      exact hv
    · exact h.admitted d hd

/-- At most fourteen speakers and two channels kept free. -/
theorem Valid.inBounds_mapLayout (h : n.Valid) : (Graph.mapLayout n.properties).InBounds := by
  have hlength : (n.properties.floatArray .channelMap).length ≤ 14 := by
    rw [Properties.floatArray]
    split
    · next vs hvs =>
      obtain ⟨x, hx, hvalue⟩ := Option.map_eq_some_iff.mp hvs
      have hmem := Properties.mem_of_get? hx
      have hadmits := h.admitted _ hmem
      rw [(h.declared_of_mem hmem).1, hvalue] at hadmits
      exact hadmits.2.1
    · exact Nat.zero_le _
  refine Layout.inBounds_spread.mpr ?_
  change ChannelMap.outputCount _ _ _ ≤ maxChannels
  have hflag : ∀ b : Bool, b.toNat ≤ 1 := Bool.toNat_le
  have hcenter := hflag (n.properties.flag .skipCenter)
  have hlfe := hflag (n.properties.flag .skipLfe)
  rw [ChannelMap.outputCount, List.length_map, maxChannels]
  split <;> omega

end Node

/-! ## Graphs -/

namespace Graph

variable {g g' g'' : Graph} {x id : NodeId} {n n' : Node} {i : Nat}

/-- Every node is valid. -/
def Valid (g : Graph) : Prop := ∀ x n, g.node x = .ok n → n.Valid

/-- Every node was there before and resembles what it was. -/
def Continues (g g' : Graph) : Prop :=
  ∀ x n', g'.node x = .ok n' → ∃ n, g.node x = .ok n ∧ n.Resembles n'

/-- Every node was there before and resembles what it was, or is new and as its kind starts. -/
def Adds (g g' : Graph) : Prop :=
  ∀ x n', g'.node x = .ok n' → (∃ n, g.node x = .ok n ∧ n.Resembles n') ∨
    (∀ n, g.node x ≠ .ok n) ∧ n'.properties.bare = n'.kind.properties.bare

theorem Continues.adds (h : g.Continues g') : g.Adds g' := fun x n' hn' => .inl (h x n' hn')

theorem continues_of_node (h : ∀ x, g'.node x = g.node x) : g.Continues g' :=
  fun x n' hn' => ⟨n', (h x).symm.trans hn', .refl n'⟩

theorem continues_modifyAt {f : Node → Node} (hf : ∀ n, g.nodeAt? i = some n → n.Resembles (f n)) :
    g.Continues (g.modifyAt i f) := fun _ _ hn' => (within_modifyAt .refl hf).node_back hn'

theorem Valid.adds (h : g.Valid) (ha : g.Adds g') : g'.Valid := by
  intro x n' hn'
  rcases ha x n' hn' with ⟨n, hn, hr⟩ | ⟨-, hbare⟩
  · exact (h x n hn).resembles hr
  · exact Node.valid_of_bare hbare

theorem Valid.at (h : g.Valid) (hn : g.nodeAt? i = some n) : n.Valid :=
  h _ n (node_handleAt.mpr hn)

theorem valid_new (rate capacity : Nat) : (Graph.new rate capacity).Valid :=
  fun _ _ hn => absurd ((node_eq_ok_iff _ _ _).mp hn) (by simp [Graph.new])

/-! ### Happenings -/

/-- A turn forgets only marks. -/
theorem Turn.resembles {rate : Nat} {rings rings' : List Ring} {inputs : List Block}
    (h : Turn rate rings inputs n n' rings') : n.Resembles n' := by
  refine ⟨?_, by rw [h.properties, Properties.bare_clearModified]⟩
  cases hflag : n.properties.flag .suspended with
  | true => rw [(h.suspended hflag).1]
  | false =>
    obtain ⟨done, hdone, hkind, -⟩ := h.active hflag
    rw [hkind, (NodeKind.process_ok hdone).2.1]

theorem continues_applyLayoutAt {l : Layout} (h : g.applyLayoutAt i l = .ok g') :
    g.Continues g' := by
  rw [applyLayoutAt] at h
  split at h
  · cases h
    exact continues_modifyAt fun n _ => n.resembles_layoutApplied
  · obtain ⟨_, -, h⟩ := bind_eq_ok.mp h
    cases h
    exact continues_modifyAt fun n _ => n.resembles_arrange l

theorem continues_observers (g : Graph) (id : NodeId) (p : PropertyId) (phase : Phase)
    (f : List Observer → List Observer) :
    g.Continues (g.modifyProperty id p fun x => x.setObservers phase (f (x.observers phase))) := by
  rw [modifyProperty]
  split
  · exact continues_modifyAt fun n _ =>
      ⟨rfl, Properties.bare_modify fun x => x.bare_setObservers _ _⟩
  · exact continues_of_node fun _ => rfl

end Graph

open SpatialAudio.Graph

theorem Fate.resembles {g : Graph} {id x : NodeId} {n n' : Node} (h : Fate g id x n n') :
    n.Resembles n' := by
  cases h with
  | refused _ h => exact h.resembles
  | turn _ _ h hturn => exact h.resembles.trans hturn.resembles
  | around _ _ _ h =>
    subst h
    exact ⟨rfl, Properties.bare_clearModified _⟩
  | beside _ _ _ h =>
    subst h
    exact .refl _

theorem Deed.Touches.resembles {α : Type} {g : Graph} {x : NodeId} {d : Deed α} {n n' : Node}
    (h : d.Touches g x n n') : n.Resembles n' := by
  cases d with
  | arrange id layout =>
    obtain ⟨-, rfl⟩ := h
    exact n.resembles_rearrange layout
  | observe phase id p o =>
    obtain ⟨-, rfl⟩ := h
    exact n.resembles_withObservers phase p _
  | recomputeMap id =>
    obtain ⟨-, hprops, -, q, q', hk, hk'⟩ := h
    exact ⟨by rw [hk, hk']; rfl, congrArg Properties.bare hprops⟩
  | markRecompute id =>
    obtain ⟨-, q, hk, rfl⟩ := h
    exact ⟨by rw [hk]; rfl, rfl⟩
  | adopt id strategy =>
    obtain ⟨-, m, hk, rfl⟩ := h
    exact ⟨by rw [hk]; rfl, rfl⟩
  | pull id => exact h.2.resembles
  | _ => exact h.elim

/-- **A deed changes no value**, and the nodes it adds have those that their kind starts with. -/
theorem Deed.adds {α : Type} {g : Graph} (h : g.Sound) (d : Deed α) : g.Adds (d.after g) := by
  intro x n' hn'
  rcases d.origin h hn' with ⟨n, hn, rfl | htouched⟩ | ⟨hnew, hborn⟩
  · exact .inl ⟨_, hn, .refl _⟩
  · exact .inl ⟨n, hn, htouched.resembles⟩
  · exact .inr ⟨hnew, hborn.bare⟩

theorem Graph.Adds.resembles {g g' : Graph} (h : g.Adds g') {x : NodeId} {n n' : Node}
    (hn : g.node x = .ok n) (hn' : g'.node x = .ok n') : n.Resembles n' := by
  rcases h x n' hn' with ⟨m, hm, hr⟩ | ⟨hnew, -⟩
  · cases hn.symm.trans hm
    exact hr
  · exact absurd hn (hnew n)

/-- **As long as a node is there, its type and what is declared of its properties stay.** -/
theorem Happening.same_declaration {g : Graph} (hs : g.Sound) (h : Happening) {x : NodeId}
    {n n' : Node} (hn : g.node x = .ok n) (hn' : (h.after g).node x = .ok n') :
    n'.kind.type = n.kind.type ∧ n'.properties.declaration = n.properties.declaration := by
  have hobservers : ∀ id p phase (f : List Observer → List Observer),
      (g.modifyProperty id p fun y => y.setObservers phase (f (y.observers phase))).node x = .ok n' →
        n.Resembles n' :=
    fun id p phase f hn' => (continues_observers g id p phase f).adds.resembles hn hn'
  cases h with
  | deed d =>
    have hr := (d.adds hs).resembles hn hn'
    exact ⟨hr.type, hr.declaration⟩
  | taken phase id p =>
    have hr := hobservers id p phase (fun _ => []) hn'
    exact ⟨hr.type, hr.declaration⟩
  | restored phase id p os =>
    have hr := hobservers id p phase (os ++ ·) hn'
    exact ⟨hr.type, hr.declaration⟩
  | stored id p v =>
    have hw : Within (fun n n' => n'.kind.type = n.kind.type ∧
        n'.properties.declaration = n.properties.declaration) g (Happening.after (.stored id p v) g) := by
      rw [Happening.after, modifyProperty]
      split
      · exact within_modifyAt (fun _ => ⟨rfl, rfl⟩) fun m _ =>
          ⟨rfl, Properties.declaration_store _ _ _⟩
      · exact .refl (fun _ => ⟨rfl, rfl⟩) g
    obtain ⟨m, hm, hsame⟩ := hw.node_back hn'
    cases hn.symm.trans hm
    exact hsame

/-! ## Values -/

namespace Graph

variable {g g' : Graph} {x id : NodeId} {n n' : Node}

/-- Sound, with valid values. -/
structure Tidy (g : Graph) : Prop where
  sound : g.Sound
  valid : g.Valid

theorem Tidy.store (h : g.Tidy) {p : PropertyId} {v : PropertyValue} (hv : p.range.Admits v)
    (id : NodeId) : (g.modifyProperty id p (·.store v)).Tidy := by
  refine ⟨h.sound.move (.property g id p _), ?_⟩
  rcases h.sound.modifyProperty_cases id p (·.store v) with hsame | ⟨n, hn, hw⟩
  · rw [hsame]
    exact h.valid
  · intro x n' hn'
    by_cases hx : x = id
    · subst hx
      cases hw.self.symm.trans hn'
      exact (h.valid x n hn).store hv
    · exact h.valid x n' ((hw.other hx).symm.trans hn')

end Graph

/-- **Valid values last**, because only admitted ones are stored. -/
theorem lasting_tidy : Lasting Graph.Tidy fun p v => p.range.Admits v where
  deed d g h := ⟨h.sound.moved (d.moved g), h.valid.adds (d.adds h.sound)⟩
  observers g id p phase f h :=
    ⟨h.sound.move (.property g id p _), h.valid.adds (continues_observers g id p phase f).adds⟩
  checked g id p x v h hx hv := by
    obtain ⟨n, hn, hget⟩ := property_eq_ok.mp hx
    rw [← ((h.valid id n hn).declared_of_mem (Properties.mem_of_get? hget)).1]
    exact Property.validate_eq_ok.mp hv
  stored g id p v hv h := h.store hv id

theorem Session.Course.tidy {rate capacity : Nat} {steps : List Step} {g : Graph}
    (h : (Session.new rate capacity).Course steps g) : g.Tidy :=
  lasting_tidy.course ⟨sound_new _ _, valid_new _ _⟩ h

/-! ## Staged layouts -/

/-- A connection does not fit; neither a channel count nor a channel range is at fault. -/
def Error.Misfit : Error → Prop
  | .invalidSlot .. | .channelMismatch .. => True
  | _ => False

namespace Graph

variable {g g' : Graph} {id : NodeId} {n : Node} {i : Nat} {l : Layout} {e : Error} {f : Failure}

theorem misfit_slotRange {slots : List ChannelRange} {k : Nat}
    (h : slotRange slots k = .error e) : e.Misfit := by
  rw [slotRange] at h
  split at h
  · cases h
  · cases h
    trivial

theorem misfit_checkWidth {a b : Nat} (h : checkWidth a b = .error e) : e.Misfit := by
  rw [checkWidth] at h
  split at h
  · cases h
  · cases h
    trivial

theorem misfit_checkEdges (h : g.checkEdges i l = .error e) : e.Misfit := by
  rcases bind_eq_error.mp h with h | ⟨_, -, h⟩
  all_goals
    obtain ⟨edge, -, h⟩ := exists_of_forM_eq_error h
    rcases bind_eq_error.mp h with h | ⟨_, -, h⟩
    · exact misfit_slotRange h
    · rcases bind_eq_error.mp h with h | ⟨_, -, h⟩
      · exact misfit_slotRange h
      · exact misfit_checkWidth h

/-- **A layout in bounds is refused only where a connection does not fit.** -/
theorem misfit_applyLayoutAt (hl : l.InBounds) (h : g.applyLayoutAt i l = .error f) :
    ∃ e, f = .refused e ∧ e.Misfit := by
  rw [applyLayoutAt] at h
  split at h
  · cases h
  · rcases bind_eq_error.mp h with h | ⟨_, -, h⟩
    · cases hedges : g.checkEdges i l with
      | ok _ =>
        rw [checkLayout_eq_ok.mpr ⟨hl, hedges⟩] at h
        cases h
      | error e =>
        refine ⟨e, ?_, misfit_checkEdges hedges⟩
        have hchannels := checkChannels_eq_ok.mpr ⟨hl.inputs_le, hl.outputs_le⟩
        rw [checkLayout, hchannels, (checkSlots_eq_ok hl.inputs_le).mpr hl.inputSlots,
          (checkSlots_eq_ok hl.outputs_le).mpr hl.outputSlots, hedges] at h
        cases h
        rfl
    · cases h

/-- The layout of a map is staged, and refused only where a connection does not fit. -/
theorem misfit_recomputeMap (h : n.Valid) (hn : g.node id = .ok n) {q : AmplitudePanner}
    (hk : n.kind = .amplitudePanner q) (hrun : ((recomputeMap id).run g).1 = .error f) :
    ∃ e, f = .refused e ∧ e.Misfit := by
  have hstaged : (g.modifyAt id.index fun _ => staged q n).index id = .ok id.index :=
    index_eq_ok.mpr ⟨⟨_, by rw [node_modifyAt _ hn, if_pos rfl]⟩, rfl⟩
  rw [run_recomputeMap hn hk, applyLayout, hstaged] at hrun
  split at hrun
  · cases hrun
  · next happly =>
    cases hrun
    exact misfit_applyLayoutAt h.inBounds_mapLayout happly

theorem Valid.misfit_proposeAll (h : g.Valid) (schedule : List Nat) :
    ∃ ready refused, proposeAll schedule g = .ok (ready, refused) ∧
      ∀ i e, refused = some (i, e) → e.Misfit := by
  induction schedule generalizing g with
  | nil => exact ⟨g, none, rfl, nofun⟩
  | cons i rest ih =>
    rw [proposeAll]
    split
    · exact ih h
    · next n hn =>
      have hproposed : (g.modifyAt i fun m =>
          { m with kind := (n.kind.propose n.properties).1 }).Valid := by
        refine h.adds (continues_modifyAt fun m hm => ?_).adds
        cases hn.symm.trans hm
        exact (played_propose n).resembles
      rcases hp : n.kind.propose n.properties with ⟨kind, wanted⟩
      rw [hp] at hproposed
      cases wanted with
      | none => exact ih hproposed
      | some l =>
        obtain ⟨rfl, -⟩ := propose_eq_some (congrArg Prod.snd hp)
        dsimp only
        split
        · next happly => exact ih (hproposed.adds (continues_applyLayoutAt happly).adds)
        · next e happly =>
          obtain ⟨e', he, hmisfit⟩ := misfit_applyLayoutAt (h.at hn).inBounds_mapLayout happly
          cases he
          refine ⟨_, _, rfl, fun j e' hje => ?_⟩
          cases hje
          exact hmisfit
        · next happly =>
          obtain ⟨e', he, -⟩ := misfit_applyLayoutAt (h.at hn).inBounds_mapLayout happly
          cases he

/-- **A block is given up only where a connection does not fit a staged layout.** -/
theorem Valid.misfit_prepare (h : g.Valid) {root culprit : Nat} {ready : Graph}
    (hready : g.prepare id = .ok (root, ready, some (culprit, e))) : e.Misfit := by
  obtain ⟨-, -, hpropose⟩ := prepare_eq_ok.mp hready
  have hbegun : (g.begun root).Valid := h.adds (continues_of_node (node_scheduleFor g root)).adds
  obtain ⟨_, _, hrun, hmisfit⟩ := hbegun.misfit_proposeAll (g.begun root).schedule
  cases hrun.symm.trans hpropose
  exact hmisfit culprit e rfl

end Graph

/-! ## Resetting -/

/-- A default that passes validation goes straight to the observers. -/
theorem run_reset {run : Event → Observer → Action Unit} {s : Session} {label : Label} {x : NodeId}
    {p : PropertyId} {y : Property} (hl : s.nodes.get? label = some x)
    (hy : s.graph.property x p = .ok y) (hv : y.validate p y.default = .ok ()) :
    (perform (setWith run) (.reset label p)).run s = (do
      notify run .before ⟨x, p, some y.default⟩
      .change fun g => g.store x p y.default
      notify run .after ⟨x, p, none⟩
      return Answer.done : Action Answer).run s := by
  have hvalid : (Action.read fun g => do (← g.property x p).validate p y.default).run s
      = (.ok (), s) := run_read_ok (by rw [hy]; exact hv)
  rw [perform, run_bind_ok (run_node hl), run_bind_ok (run_read_ok hy), setWith, bind_assoc,
    run_bind_ok hvalid]
  simp only [bind_assoc]

/-! ## The course of a session -/

/-- **Stored values are valid throughout a session**, and so are the layouts of amplitude
panners. -/
theorem valid_of_course (rate capacity : Nat) (steps : List Step) :
    (∀ g, (Session.new rate capacity).Course steps g →
      -- every value is of the range of its property
      (∀ x p y, g.property x p = .ok y → y.range = p.range ∧ y.validate p y.value = .ok () ∧
        p.Proper y.value) ∧
      -- every node has the properties of its kind, in their order
      (∀ x n, g.node x = .ok n → n.properties.declaration = n.kind.properties.declaration) ∧
      -- defaults pass validation, and resetting a property goes straight to its observers
      (∀ x p y, g.property x p = .ok y → y.validate p y.default = .ok () ∧
        ∀ run s label, s.graph = g → s.nodes.get? label = some x →
          (perform (setWith run) (.reset label p)).run s = (do
            notify run .before ⟨x, p, some y.default⟩
            .change fun g => g.store x p y.default
            notify run .after ⟨x, p, none⟩
            return Answer.done : Action Answer).run s) ∧
      -- the layout that an amplitude panner stages is in bounds, and only connections refuse it
      (∀ x n q, g.node x = .ok n → n.kind = .amplitudePanner q →
        (q.stage n.properties).2.outputs ≤ 16 ∧ (q.stage n.properties).2.InBounds ∧
        ∀ f, ((recomputeMap x).run g).1 = .error f → ∃ e, f = .refused e ∧ e.Misfit) ∧
      ∀ x root ready culprit e, g.prepare x = .ok (root, ready, some (culprit, e)) → e.Misfit) ∧
    -- from its creation on, a node keeps its type and what is declared of its properties
    ∀ hs h, hs ++ [h] <+: ((Session.new rate capacity).tale steps).happenings →
      ∀ x n n', (replay (Session.new rate capacity).graph hs).node x = .ok n →
        (replay (Session.new rate capacity).graph (hs ++ [h])).node x = .ok n' →
          n'.kind.type = n.kind.type ∧ n'.properties.declaration = n.properties.declaration := by
  refine ⟨fun g hg => ?_, fun hs h hbegin x n n' hn hn' => ?_⟩
  · obtain ⟨hsound, hvalid⟩ := hg.tidy
    have hdeclared : ∀ {x p y}, g.property x p = .ok y →
        y.range = p.range ∧ p.range.Admits y.default ∧ p.range.Admits y.value := by
      intro x p y hy
      obtain ⟨n, hn, hget⟩ := property_eq_ok.mp hy
      have hmem := Properties.mem_of_get? hget
      obtain ⟨hrange, hdefault⟩ := (hvalid x n hn).declared_of_mem hmem
      exact ⟨hrange, hdefault, hrange ▸ (hvalid x n hn).admitted _ hmem⟩
    refine ⟨fun x p y hy => ?_, fun x n hn => (hvalid x n hn).declared, fun x p y hy => ?_,
      fun x n q hn hk => ?_, fun x root ready culprit e hready => hvalid.misfit_prepare hready⟩
    · obtain ⟨hrange, -, hvalue⟩ := hdeclared hy
      exact ⟨hrange, Property.validate_eq_ok.mpr (hrange ▸ hvalue),
        PropertyId.proper_of_admits hvalue⟩
    · obtain ⟨hrange, hdefault, -⟩ := hdeclared hy
      have hv : y.validate p y.default = .ok () := Property.validate_eq_ok.mpr (hrange ▸ hdefault)
      refine ⟨hv, ?_⟩
      rintro run s label rfl hl
      exact run_reset hl hy hv
    · have hbounds : (q.stage n.properties).2.InBounds := (hvalid x n hn).inBounds_mapLayout
      exact ⟨hbounds.outputs_le, hbounds, fun f hrun => misfit_recomputeMap (hvalid x n hn) hn hk hrun⟩
  · have hcourse : (Session.new rate capacity).Course steps
        (replay (Session.new rate capacity).graph hs) :=
      ⟨hs, (List.prefix_append hs [h]).trans hbegin, rfl⟩
    rw [replay_append] at hn'
    exact h.same_declaration hcourse.tidy.sound hn hn'

/-- An amplitude panner is given a third speaker, whose observer first frees the center channel. -/
def thirdSpeaker : List Step :=
  [.create "panner" .amplitudePanner,
    .command (.observe .before "panner" .channelMap "free" none false
      [.set "panner" .skipCenter (.int 0)]),
    .command (.set "panner" .channelMap (.floatArray [-30, 0, 30]))]

/-- What the panner has come to. -/
theorem view_thirdSpeaker :
    let g := ((Session.new 44100 64).afterSteps thirdSpeaker).graph
    g.handleAt 0 = ⟨0, 0⟩ ∧
    (g.nodeAt? 0).map (fun n => (n.kind.type, n.properties.value? .channelMap,
        n.properties.value? .skipCenter, (mapLayout n.properties).outputs))
      = some (.amplitudePanner, some (.floatArray [-30, 0, 30]), some (.int 0), 4) := by
  decide +kernel

theorem valid_thirdSpeaker : ∃ g, (Session.new 44100 64).Course thirdSpeaker g ∧
    ∃ n q y, g.node ⟨0, 0⟩ = .ok n ∧ n.kind = .amplitudePanner q ∧
      g.property ⟨0, 0⟩ .channelMap = .ok y ∧ y.value = .floatArray [-30, 0, 30] ∧
      PropertyId.channelMap.Proper y.value ∧ y.validate .channelMap y.default = .ok () ∧
      (q.stage n.properties).2.outputs = 4 ∧ (q.stage n.properties).2.InBounds := by
  have hcourse := (Session.new 44100 64).course_afterSteps thirdSpeaker
  obtain ⟨hhandle, hview⟩ := view_thirdSpeaker
  generalize ((Session.new 44100 64).afterSteps thirdSpeaker).graph = g at hcourse hhandle hview
  obtain ⟨n, hat, hview⟩ := Option.map_eq_some_iff.mp hview
  simp only [Prod.mk.injEq] at hview
  obtain ⟨htype, hmap, -, houtputs⟩ := hview
  have hn : g.node ⟨0, 0⟩ = .ok n := node_eq_ok.mpr ⟨hat, hhandle⟩
  obtain ⟨q, hk⟩ : ∃ q, n.kind = .amplitudePanner q := by
    cases hk : n.kind with
    | amplitudePanner q => exact ⟨q, rfl⟩
    | _ => rw [hk] at htype; cases htype
  obtain ⟨y, hy, hvalue⟩ := Option.map_eq_some_iff.mp hmap
  have hproperty : g.property ⟨0, 0⟩ .channelMap = .ok y := property_eq_ok.mpr ⟨n, hn, hy⟩
  obtain ⟨hvalues, -, hdefaults, hlayouts, -⟩ :=
    (valid_of_course 44100 64 thirdSpeaker).1 g hcourse
  exact ⟨g, hcourse, n, q, y, hn, hk, hproperty, hvalue, (hvalues _ _ y hproperty).2.2,
    (hdefaults _ _ y hproperty).1, houtputs, (hlayouts _ n q hn hk).2.1⟩

end SpatialAudio
