import SpatialAudio.Proofs.Maps
import SpatialAudio.Proofs.SampleBySample
import SpatialAudio.Proofs.Validity

/-!
# Proofs/Seeking — when a seek is heard

A player seeks when it plays a block with its position marked.  So what becomes of a seek depends on
the first block that processes the player after its position was set.  If the player is not suspended
then, it seeks, even if it has no output to play to; if it is, the block takes the mark away and the
player stays where it was (`Carried`).  All else leaves both the mark and the player alone, for only
multipanners are private to no one and lose their marks to others (`Graph.Filled`).

Hence where the next block starts can be told from the history (`At.replay`): at the frame that was
sought, unless the seek was lost (`mutedFirst`), and then at the frame where the player stood when
its position was set.
-/

namespace SpatialAudio

open Relation SpatialAudio.Graph

/-! ## Only multipanners have an interior -/

/-- Only multipanners have an interior. -/
def Graph.Filled (g : Graph) : Prop :=
  ∀ x n, g.node x = .ok n → n.interior ≠ none → n.kind.type = .multipanner

variable {g g' : Graph} {x id : NodeId} {n n' : Node} {p p' : SamplePlayer} {k : Happening}
  {hs : List Happening} {rate position cue : Nat} {samples : Array Float32}

theorem type_of_assembled {m : Multipanner} (h : Multipanner.Assembled g id m g')
    (hx : x ∈ id :: m.inside) (hn' : g'.node x = .ok n') (hinterior : n'.interior ≠ none) :
    n'.kind.type = .multipanner := by
  have hplain : ∀ {y kind ps l o}, g'.Holds y kind ps l o none → y ≠ x := by
    rintro y kind ps l o ⟨_, _, hy⟩ rfl
    cases hy.symm.trans hn'
    exact hinterior rfl
  rcases List.mem_cons.mp hx with rfl | hx
  · obtain ⟨_, _, hpanner⟩ := h.panner
    cases hpanner.symm.trans hn'
    rfl
  · obtain ⟨q, hhrtf⟩ := h.hrtf
    rcases Multipanner.mem_inside.mp hx with rfl | rfl | rfl | rfl
    · exact absurd rfl (hplain h.input)
    · exact absurd rfl (hplain h.output)
    · exact absurd rfl (hplain hhrtf)
    · exact absurd rfl (hplain h.amplitude)

/-- A new node with an interior is a multipanner. -/
theorem Happening.type_of_new (h : g.Sound) (hnew : ∀ n, g.node x ≠ .ok n)
    (hn' : (k.after g).node x = .ok n') (hinterior : n'.interior ≠ none) :
    n'.kind.type = .multipanner := by
  have hold : ∀ {T}, ¬ Stems g x T n' := fun ⟨n, hn, _⟩ => hnew n hn
  cases k with
  | deed d =>
    cases hmakes : d.makes with
    | false => exact absurd (Deed.stems h hmakes hn') hold
    | true =>
      cases d with
      | associate kind layout =>
        change ((Graph.associate kind layout).run g).2.node x = .ok n' at hn'
        rcases associate_cases h kind layout with ⟨g', hrun, hw⟩ | ⟨e, g', hrun, -, hnode, -⟩
        · rw [hrun] at hn'
          by_cases hx : x = g.nextHandle
          · subst hx
            cases hw.self.symm.trans hn'
            exact absurd rfl hinterior
          · exact absurd ((hw.other hx).symm.trans hn') (hnew n')
        · rw [hrun] at hn'
          exact absurd ((hnode x).symm.trans hn') (hnew n')
      | assemble data =>
        change ((Multipanner.assemble data).run g).2.node x = .ok n' at hn'
        cases hq : HrtfPanner.new data with
        | error a =>
          rw [Multipanner.run_assemble_of_error hq] at hn'
          exact absurd hn' (hnew n')
        | ok q =>
          obtain ⟨id, m, g', hrun, ha⟩ := Multipanner.run_assemble h hq
          rw [hrun] at hn'
          by_cases hx : x ∈ id :: m.inside
          · exact type_of_assembled ha hx hn' hinterior
          · exact absurd ((ha.others x hx).symm.trans hn') (hnew n')
      | _ => cases hmakes
  | taken phase id p => exact absurd (h.stems_modifyProperty id p _ hn') hold
  | restored phase id p os => exact absurd (h.stems_modifyProperty id p _ hn') hold
  | stored id p v => exact absurd (h.stems_modifyProperty id p _ hn') hold

namespace Graph

theorem filled_new (rate capacity : Nat) : (Graph.new rate capacity).Filled :=
  fun _ _ hn => absurd ((node_eq_ok_iff _ _ _).mp hn) (by simp [Graph.new])

theorem Filled.happening (hf : g.Filled) (h : g.Sound) (k : Happening) : (k.after g).Filled := by
  intro x n' hn' hinterior
  rcases k.origin h hn' with ⟨n, hn, -⟩ | ⟨hnew, -⟩
  · rw [(k.same_declaration h hn hn').1]
    rw [(k.samePlace h hn hn').interior] at hinterior
    exact hf x n hn hinterior
  · exact k.type_of_new h hnew hn' hinterior

theorem Filled.replay (hf : g.Filled) (h : g.Sound) (hs : List Happening) :
    (replay g hs).Filled := by
  induction hs generalizing g with
  | nil => exact hf
  | cons k hs ih => exact ih (hf.happening h k) (h.happening k)

theorem Filled.plain (hf : g.Filled) (hn : g.node x = .ok n) (hp : n.kind = .samplePlayer p) :
    n.interior = none := by
  by_contra hinterior
  have htype := hf x n hn hinterior
  rw [hp] at htype
  cases htype

/-- A node without an interior owns nothing. -/
theorem Sound.not_owns (h : g.Sound) (hn : g.node x = .ok n) (hplain : n.interior = none) (i : Nat) :
    ¬ g.Owns x.index i := by
  intro howns
  obtain ⟨m, hm, howner⟩ := Option.map_eq_some_iff.mp howns
  obtain ⟨-, o, ho, hsome⟩ := h.nested.owned _ m _ (node_handleAt.mpr hm) howner
  rw [handleAt_of_node hn] at ho
  cases hn.symm.trans ho
  exact hsome hplain

/-! ## Blocks that process a node -/

/-- A block for `id` processes the node `x` while it is suspended. -/
def mutes (g : Graph) (id x : NodeId) : Bool :=
  match g.prepare id, g.pull id, g.node x with
  | .ok (_, ready, none), .ok _, .ok n => x.index ∈ ready.schedule && n.properties.flag .suspended
  | _, _, _ => false

/-- The node `x` before and after a block for `id` that processes it while it is not suspended and
has an output. -/
def sounds? (g : Graph) (id x : NodeId) : Option (Node × Node) :=
  (g.renders? id x).filter fun r => 0 < r.1.layout.outputs

theorem sounds?_eq_some :
    g.sounds? id x = some (n, n') ↔ g.renders? id x = some (n, n') ∧ 0 < n.layout.outputs := by
  simp [sounds?]

theorem mutes_eq {root : Nat} {ready : Graph} (hready : g.prepare id = .ok (root, ready, none))
    (hpull : g.pull id = .ok g') (hn : g.node x = .ok n) :
    g.mutes id x = (x.index ∈ ready.schedule && n.properties.flag .suspended) := by
  simp only [mutes, hready, hpull, hn]

theorem mutes_of_error {e : Failure} (hpull : g.pull id = .error e) : g.mutes id x = false := by
  rw [mutes, hpull]
  split
  · next h _ => cases h
  · rfl

theorem mutes_of_refused {root : Nat} {ready : Graph} {refusal : Nat × Error}
    (hready : g.prepare id = .ok (root, ready, some refusal)) : g.mutes id x = false := by
  simp only [mutes, hready]

end Graph

namespace Happening

/-- The happening stores the position of the player `x`. -/
def seeks (x : NodeId) : Happening → Bool
  | stored id p _ => id = x && p = .position
  | _ => false

/-- The happening is a block that processes the node `x` while it is suspended. -/
def mutes (x : NodeId) (g : Graph) : Happening → Bool
  | deed (.pull id) => g.mutes id x
  | _ => false

/-- The happening is a block that processes the node `x` while it is not suspended. -/
def renders (x : NodeId) (g : Graph) : Happening → Bool
  | deed (.pull id) => (g.renders? id x).isSome
  | _ => false

/-- The happening is such a block, and the node has an output. -/
def sounds (x : NodeId) (g : Graph) : Happening → Bool
  | deed (.pull id) => (g.sounds? id x).isSome
  | _ => false

end Happening

/-- One of the blocks plays the node `x` to an output. -/
def sounded (x : NodeId) : Graph → List Happening → Bool
  | _, [] => false
  | g, k :: ks => k.sounds x g || sounded x (k.after g) ks

/-- The first of the blocks that process the node `x` finds it suspended. -/
def mutedFirst (x : NodeId) : Graph → List Happening → Bool
  | _, [] => false
  | g, k :: ks => k.mutes x g || !k.renders x g && mutedFirst x (k.after g) ks

/-! ## What becomes of a player -/

/-- What becomes of the player `p` of a node `x` in a happening. -/
inductive Carried (x : NodeId) (g : Graph) (k : Happening) (n n' : Node) (p : SamplePlayer) : Prop
  | rendered {id : NodeId} {outputs : List Block} (hblock : k = .deed (.pull id))
      (hrenders : g.renders? id x = some (n, n')) (hmutes : g.mutes id x = false)
      (hlength : outputs.length = n.layout.outputs)
      (hkind : n'.kind = .samplePlayer (p.process g.sampleRate n.properties outputs).1)
      (houtputs : n'.outputs = finish n.properties (p.process g.sampleRate n.properties outputs).2)
      (hprops : n'.properties = n.properties.clearModified)
  | muted {id : NodeId} (hblock : k = .deed (.pull id)) (hmutes : g.mutes id x = true)
      (hrenders : g.renders? id x = none)
      (hkind : n'.kind = n.kind) (hprops : n'.properties = n.properties.clearModified)
  /-- The player is left alone; its position may be stored. -/
  | left (hquiet : ∀ id, k = .deed (.pull id) → g.renders? id x = none ∧ g.mutes id x = false)
      (hkind : n'.kind = n.kind)
      (hkept : k.seeks x = false →
        n'.properties.mark? .position = n.properties.mark? .position ∧
          n'.properties.value? .position = n.properties.value? .position)

/-- A player asks for no layout. -/
theorem Node.obliged_of_player (hp : n.kind = .samplePlayer p) : n.obliged = n := by
  rcases n.asks_or_obliged_eq with ⟨q, hasks⟩ | hself
  · cases hp.symm.trans hasks.1
  · exact hself

/-- A block that is given up leaves a player as it is. -/
theorem Graph.Sound.spares_player (h : g.Sound) {root : Nat} {ready : Graph} {refusal : Nat × Error}
    (hready : g.prepare id = .ok (root, ready, some refusal)) (hn : g.node x = .ok n)
    (hp : n.kind = .samplePlayer p)
    (hn' : ((Happening.deed (.pull id)).after g).node x = .ok n') :
    n'.kind = n.kind ∧ n'.properties = n.properties := by
  rw [Happening.after_pull (pull_of_refused hready)] at hn'
  obtain ⟨served, -, -, -, -, hspared⟩ := (h.givenUp_of_refused hready).nodes
  obtain ⟨m, hm, hspared⟩ := hspared x.index n (nodeAt?_of_node hn)
  cases (nodeAt?_of_node hn').symm.trans hm
  exact ⟨hspared.state fun q hq => (nomatch hp.symm.trans hq), hspared.properties⟩

/-- A block that neither renders nor mutes a player leaves it alone, if it leaves its state and
properties alone. -/
theorem Carried.of_idle (hrenders : g.renders? id x = none) (hmutes : g.mutes id x = false)
    (hkind : n'.kind = n.kind) (hprops : n'.properties = n.properties) :
    Carried x g (.deed (.pull id)) n n' p := by
  refine .left ?_ hkind fun _ => by rw [hprops]; exact ⟨rfl, rfl⟩
  rintro id' heq
  cases heq
  exact ⟨hrenders, hmutes⟩

namespace Graph.Sound

variable {root : Nat} {ready : Graph}

/-- A player that takes its turn in a block is rendered or muted. -/
theorem carried_turn (h : g.Sound) (hready : g.prepare id = .ok (root, ready, none))
    (hpull : g.pull id = .ok g') (hn : g.node x = .ok n) (hp : n.kind = .samplePlayer p)
    (hn' : g'.node x = .ok n') (hleads : Leads g.edges x.index root) :
    Carried x g (.deed (.pull id)) n n' p := by
  have hscheduled : x.index ∈ ready.schedule := (h.prepared hready).scheduled.mpr hleads
  have hrenders := renders?_eq hready hpull hn hn'
  have hmutes := mutes_eq hready hpull hn
  rw [decide_eq_true hscheduled, Bool.true_and] at hmutes
  obtain ⟨-, rings, rings', hturn⟩ := h.turn_obliged hready hpull hn hn' hleads
  rw [Node.obliged_of_player hp] at hturn
  cases hflag : n.properties.flag .suspended with
  | true =>
    rw [if_neg fun hboth => Bool.noConfusion (hboth.2.symm.trans hflag)] at hrenders
    exact .muted rfl (hmutes.trans hflag) hrenders (hturn.suspended hflag).1 hturn.properties
  | false =>
    rw [if_pos ⟨hscheduled, hflag⟩] at hrenders
    obtain ⟨done, hdone, hkind, houtputs, -⟩ := hturn.active hflag
    rw [hp] at hdone
    cases hdone
    exact .rendered rfl hrenders (hmutes.trans hflag)
      (h.wellFormed.fits _ n (nodeAt?_of_node hn)).outputs hkind houtputs hturn.properties

/-- A block that is played for other nodes does not concern a player. -/
theorem carried_beside (h : g.Sound) (hready : g.prepare id = .ok (root, ready, none))
    (hpull : g.pull id = .ok g') (hn : g.node x = .ok n) (hn' : g'.node x = .ok n)
    (hleads : ¬ Leads g.edges x.index root) : Carried x g (.deed (.pull id)) n n p := by
  have hnot : x.index ∉ ready.schedule :=
    fun hmem => hleads ((h.prepared hready).scheduled.mp hmem)
  have hrenders := renders?_eq hready hpull hn hn'
  have hmutes := mutes_eq hready hpull hn
  rw [if_neg fun hboth => hnot hboth.1] at hrenders
  rw [decide_eq_false hnot, Bool.false_and] at hmutes
  exact .of_idle hrenders hmutes rfl rfl

/-- What a block does to a player. -/
theorem carried_pull (h : g.Sound) (hn : g.node x = .ok n) (hp : n.kind = .samplePlayer p)
    (hplain : n.interior = none)
    (hn' : ((Happening.deed (.pull id)).after g).node x = .ok n') :
    Carried x g (.deed (.pull id)) n n' p := by
  cases hpull : g.pull id with
  | error e =>
    change ((GraphM.update fun g => g.pull id).run g).2.node x = .ok n' at hn'
    rw [run_update, hpull] at hn'
    cases hn.symm.trans hn'
    exact .of_idle (renders?_of_error hpull) (mutes_of_error hpull) rfl rfl
  | ok g' =>
    have hafter := hn'
    rw [Happening.after_pull hpull] at hafter
    obtain ⟨m, hm, hfate⟩ := h.exists_fate hpull hn
    cases hm.symm.trans hafter
    cases hfate with
    | refused hready =>
      obtain ⟨hkind, hprops⟩ := h.spares_player hready hn hp hn'
      exact .of_idle (renders?_of_refused hready) (mutes_of_refused hready) hkind hprops
    | turn hready hleads => exact h.carried_turn hready hpull hn hp hafter hleads
    | around _ _ howns =>
      obtain ⟨i, -, howns⟩ := howns
      exact absurd howns (h.not_owns hn hplain i)
    | beside hready hleads _ hsame =>
      subst hsame
      exact h.carried_beside hready hpull hn hafter hleads

end Graph.Sound

/-- **A player is rendered, muted or left alone.** -/
theorem Happening.carried (h : g.Sound) (k : Happening) (hn : g.node x = .ok n)
    (hp : n.kind = .samplePlayer p) (hplain : n.interior = none)
    (hn' : (k.after g).node x = .ok n') : Carried x g k n n' p := by
  by_cases hpull : ∃ id, k = .deed (.pull id)
  · obtain ⟨id, rfl⟩ := hpull
    exact h.carried_pull hn hp hplain hn'
  have hquiet : ∀ id, k = .deed (.pull id) → g.renders? id x = none ∧ g.mutes id x = false :=
    fun id hk => absurd ⟨id, hk⟩ hpull
  rcases k.same_or_touches h hn hn' with rfl | htouched
  · exact .left hquiet rfl fun _ => ⟨rfl, rfl⟩
  have hobserved : ∀ phase q f, n' = n.withObservers phase q f → Carried x g k n n' p := by
    rintro phase q f rfl
    exact .left hquiet rfl fun _ =>
      ⟨n.mark?_withObservers phase q f, n.value?_withObservers phase q _ f⟩
  cases k with
  | taken phase id q => exact hobserved phase q _ htouched.2
  | restored phase id q os => exact hobserved phase q _ htouched.2
  | stored id q v =>
    obtain ⟨rfl, rfl⟩ := htouched
    refine .left hquiet rfl fun hseeks => ?_
    have hq : q ≠ .position := by simpa [seeks] using hseeks
    rw [Properties.mark?_store, Properties.value?_store, if_neg hq, if_neg hq]
    exact ⟨rfl, rfl⟩
  | deed d =>
    cases d with
    | arrange id layout =>
      obtain ⟨-, rfl⟩ := htouched
      refine .left hquiet ?_ fun _ => by rw [rearrange_properties]; exact ⟨rfl, rfl⟩
      rw [rearrange_kind, hp]
      rfl
    | observe phase id q o => exact hobserved phase q _ htouched.2
    | recomputeMap id =>
      obtain ⟨-, -, -, q, -, hq, -⟩ := htouched
      cases hp.symm.trans hq
    | markRecompute id =>
      obtain ⟨-, q, hq, -⟩ := htouched
      cases hp.symm.trans hq
    | adopt id strategy =>
      obtain ⟨-, m, hm, -⟩ := htouched
      cases hp.symm.trans hm
    | pull id => exact absurd ⟨id, rfl⟩ hpull
    | _ => exact htouched.elim

/-! ## Where a player stands -/

/-- The node is a player of the samples at a position, and its next block starts at the cue. -/
def At (rate : Nat) (samples : Array Float32) (position cue : Nat) (n : Node) : Prop :=
  ∃ p, n.kind = .samplePlayer p ∧ p.samples = samples ∧ p.position = position ∧
    (p.seek rate n.properties).position = cue

namespace SamplePlayer

theorem wasModified_eq (ps : Properties) (q : PropertyId) :
    ps.wasModified q = (ps.mark? q).getD false := by
  rw [Properties.wasModified, Properties.mark?]
  cases ps.get? q <;> rfl

/-- A seek depends on the position, and on whether it is marked. -/
theorem seek_congr {ps qs : Properties} (hmark : ps.mark? .position = qs.mark? .position)
    (hvalue : ps.value? .position = qs.value? .position) : p.seek rate ps = p.seek rate qs := by
  rw [seek, seek, wasModified_eq, wasModified_eq, hmark, Properties.float_congr hvalue]

/-- Without a mark a player does not seek. -/
theorem seek_clearModified (ps : Properties) : p.seek rate ps.clearModified = p := by
  rw [seek, wasModified_eq, Properties.mark?_clearModified, if_neg]
  cases ps.mark? .position <;> simp

/-- A position that was stored is sought. -/
theorem seek_store {ps : Properties} (hps : (ps.mark? .position).isSome = true) (s : Float32) :
    (p.seek rate (ps.modify .position (·.store (.float s)))).position = p.frameAt rate s := by
  obtain ⟨b, hb⟩ := Option.isSome_iff_exists.mp hps
  obtain ⟨y, hy, -⟩ := Option.map_eq_some_iff.mp hb
  have hmark : (ps.modify .position (·.store (.float s))).wasModified .position = true := by
    rw [wasModified_eq, Properties.mark?_store, if_pos rfl, hb]
    rfl
  have hvalue : (ps.modify .position (·.store (.float s))).float .position = s := by
    rw [Properties.float, Properties.get?_store hy]
    rfl
  rw [seek, if_pos hmark, hvalue]

end SamplePlayer

/-- A player whose marks were cleared stays where it is. -/
theorem at_of_clearModified (rate : Nat) {ps : Properties} (hkind : n'.kind = .samplePlayer p)
    (hprops : n'.properties = ps.clearModified) : At rate p.samples p.position p.position n' :=
  ⟨p, hkind, rfl, rfl, by rw [hprops, SamplePlayer.seek_clearModified]⟩

/-- **How a happening moves a player** that it neither seeks nor plays to an output: a block that
renders it has it seek, and one that mutes it takes its mark away. -/
theorem At.happening (h : g.Sound) (hA : At rate samples position cue n)
    (hrate : g.sampleRate = rate) (hplain : n.interior = none)
    (hn : g.node x = .ok n) (hn' : (k.after g).node x = .ok n') (hseeks : k.seeks x = false)
    (hsounds : k.sounds x g = false) :
    k.mutes x g = true ∧ At rate samples position position n' ∨
      k.mutes x g = false ∧ k.renders x g = true ∧ At rate samples cue cue n' ∨
      k.mutes x g = false ∧ k.renders x g = false ∧ At rate samples position cue n' := by
  obtain ⟨p, hp, rfl, rfl, rfl⟩ := hA
  cases k.carried h hn hp hplain hn' with
  | @rendered id outputs hblock hrenders hmutes hlength hkind _ hprops =>
    subst hblock
    refine .inr (.inl ⟨hmutes, ?_, ?_⟩)
    · rw [Happening.renders, hrenders]
      rfl
    · -- a block that plays to no output only seeks
      have hnone : outputs = [] := by
        refine List.eq_nil_of_length_eq_zero (hlength.trans ?_)
        by_contra hsome
        have hsounded := sounds?_eq_some.mpr ⟨hrenders, Nat.pos_of_ne_zero hsome⟩
        rw [Happening.sounds, hsounded] at hsounds
        cases hsounds
      rw [hnone, hrate] at hkind
      have hat := at_of_clearModified rate hkind hprops
      rw [show (p.process rate n.properties []).1 = p.seek rate n.properties from rfl,
        SamplePlayer.seek_eq] at hat
      exact hat
  | muted hblock hmutes _ hkind hprops =>
    subst hblock
    exact .inl ⟨hmutes, at_of_clearModified rate (hkind.trans hp) hprops⟩
  | left hquiet hkind hkept =>
    have hidle : k.mutes x g = false ∧ k.renders x g = false := by
      cases k with
      | deed d =>
        cases d with
        | pull id => exact ⟨(hquiet id rfl).2, by rw [Happening.renders, (hquiet id rfl).1]; rfl⟩
        | _ => exact ⟨rfl, rfl⟩
      | _ => exact ⟨rfl, rfl⟩
    obtain ⟨hmark, hvalue⟩ := hkept hseeks
    refine .inr (.inr ⟨hidle.1, hidle.2, p, hkind.trans hp, rfl, rfl, ?_⟩)
    rw [SamplePlayer.seek_congr hmark hvalue]

/-- **Where the next block starts**: at the cue, unless it was lost. -/
theorem At.replay (h : g.Sound) (hf : g.Filled) (hA : At rate samples position cue n)
    (hrate : g.sampleRate = rate) (hn : g.node x = .ok n) (halive : Throughout (Alive x) g hs)
    (hseeks : ∀ k ∈ hs, k.seeks x = false) (hsounded : sounded x g hs = false) :
    ∃ n' stop, (SpatialAudio.replay g hs).node x = .ok n' ∧
      At rate samples stop (if mutedFirst x g hs then position else cue) n' := by
  induction hs generalizing g n position cue with
  | nil => exact ⟨n, position, hn, hA⟩
  | cons k hs ih =>
    obtain ⟨-, halive⟩ := throughout_cons.mp halive
    obtain ⟨n', hn'⟩ := contains_iff.mp halive.start
    obtain ⟨hseeksk, hseeks⟩ := List.forall_mem_cons.mp hseeks
    obtain ⟨hsoundsk, hsounded⟩ := Bool.or_eq_false_iff.mp hsounded
    have ⟨p, hp, _⟩ := hA
    have hrest := fun {position cue} (hA' : At rate samples position cue n') =>
      ih (h.happening k) (hf.happening h k) hA' ((k.sampleRate g).trans hrate) hn' halive hseeks
        hsounded
    rw [mutedFirst]
    rcases hA.happening h hrate (hf.plain hn hp) hn hn' hseeksk hsoundsk with
      ⟨hmutes, hA'⟩ | ⟨hmutes, hrenders, hA'⟩ | ⟨hmutes, hrenders, hA'⟩
    · have hlast := hrest hA'
      rw [ite_self] at hlast
      rw [hmutes]
      exact hlast
    · have hlast := hrest hA'
      rw [ite_self] at hlast
      rw [hmutes, hrenders]
      exact hlast
    · have hlast := hrest hA'
      rw [hmutes, hrenders]
      exact hlast

/-! ## Playing from a frame -/

/-- The node is a player of the samples, and a block after which it is `n'` plays them one after the
other from `start` on. -/
def PlaysFrom (samples : Array Float32) (start : Nat) (n n' : Node) : Prop :=
  ∃ p copied stop rest, n.kind = .samplePlayer p ∧ p.samples = samples ∧
    SamplePlayer.play samples (n.properties.flag .looping) blockSize start = (copied, stop) ∧
    n'.kind = .samplePlayer { p with position := stop } ∧
    n'.outputs = finish n.properties (Block.ofList copied :: rest)

/-- **A block plays from the cue.** -/
theorem At.plays (h : g.Sound) (hA : At rate samples position cue n) (hrate : g.sampleRate = rate)
    (hplain : n.interior = none) (hn : g.node x = .ok n) {m : Node}
    (hsounds : g.sounds? id x = some (m, n')) : m = n ∧ PlaysFrom samples cue n n' := by
  obtain ⟨hrenders, hsome⟩ := sounds?_eq_some.mp hsounds
  obtain ⟨g', hpull, hm, hn'⟩ := renders?_eq_some hrenders
  cases hn.symm.trans hm
  refine ⟨rfl, ?_⟩
  obtain ⟨p, hp, rfl, rfl, rfl⟩ := hA
  rw [← Happening.after_pull hpull] at hn'
  cases h.carried_pull hn hp hplain hn' with
  | @rendered _ outputs _ _ _ hlength hkind houtputs =>
    obtain ⟨out, rest, rfl⟩ := List.exists_cons_of_length_pos (hlength ▸ hsome)
    rw [hrate, SamplePlayer.process_cons] at hkind houtputs
    exact ⟨p, _, _, rest, hp, rfl, rfl, hkind, houtputs⟩
  | muted hblock _ hnone =>
    cases hblock
    cases hnone.symm.trans hrenders
  | left hquiet =>
    cases (hquiet id rfl).1.symm.trans hrenders

/-! ## Sessions -/

theorem Properties.exists_get? {ps : Properties} {q : PropertyId} (h : q ∈ ps.keys) :
    ∃ y, ps.get? q = some y := by
  obtain ⟨e, he, rfl⟩ := List.mem_map.mp h
  have hfound : (ps.entries.find? fun e' => e'.1 = e.1).isSome = true :=
    List.find?_isSome.mpr ⟨e, he, decide_eq_true rfl⟩
  obtain ⟨e', he'⟩ := Option.isSome_iff_exists.mp hfound
  exact ⟨e'.2, congrArg (Option.map Prod.snd) he'⟩

theorem Properties.keys_eq_of_declaration {ps qs : Properties}
    (h : ps.declaration = qs.declaration) : ps.keys = qs.keys := by
  have hkeys := congrArg (List.map Prod.fst) h
  rwa [declaration, declaration, List.map_map, List.map_map] at hkeys

/-- Setting the position of a player cues the frame. -/
theorem at_of_stored (hvalid : n.Valid) (hn : g.node x = .ok n) (hp : n.kind = .samplePlayer p)
    (rate : Nat) (s : Float32) :
    ∃ n', ((Happening.stored x .position (.float s)).after g).node x = .ok n' ∧
      At rate p.samples p.position (p.frameAt rate s) n' := by
  have hkeys : .position ∈ n.properties.keys := by
    rw [Properties.keys_eq_of_declaration hvalid.declared, hp]
    exact (by decide : PropertyId.position ∈ SamplePlayer.properties.keys)
  obtain ⟨y, hy⟩ := Properties.exists_get? hkeys
  have hmark : (n.properties.mark? .position).isSome = true := by
    rw [Properties.mark?, hy]
    rfl
  exact ⟨{ n with properties := n.properties.modify .position (·.store (.float s)) },
    (node_modifyProperty hn x _ _).trans (congrArg _ (if_pos rfl)), p, hp, rfl, rfl,
    SamplePlayer.seek_store hmark s⟩

/-- **A seek is heard in the first block that plays the player, unless it was lost.**  Once the
position of a player is set, and until it is set again, the first block that plays the player to an
output starts at the frame that was sought; it starts where the player stood when its position was
set, if the first block to process the player found it suspended. -/
theorem playsFrom_of_stored (rate capacity : Nat) (steps : List Step)
    {before since post : List Happening} {s : Float32} {n₀ : Node} {p₀ : SamplePlayer}
    (htale : ((Session.new rate capacity).tale steps).happenings
      = (before ++ [.stored x .position (.float s)]) ++ (since ++ .deed (.pull id) :: post))
    -- the position of a player is set, and not again
    (hn₀ : (replay (Session.new rate capacity).graph before).node x = .ok n₀)
    (hp₀ : n₀.kind = .samplePlayer p₀)
    (hseeks : ∀ k ∈ since, k.seeks x = false)
    -- the block is the first that plays the player
    (halive : Throughout (Alive x) (replay (Session.new rate capacity).graph
      (before ++ [.stored x .position (.float s)])) since)
    (hfirst : sounded x (replay (Session.new rate capacity).graph
      (before ++ [.stored x .position (.float s)])) since = false)
    (hblock : (replay (Session.new rate capacity).graph
      ((before ++ [.stored x .position (.float s)]) ++ since)).sounds? id x = some (n, n')) :
    (mutedFirst x (replay (Session.new rate capacity).graph
        (before ++ [.stored x .position (.float s)])) since = false →
      PlaysFrom p₀.samples (p₀.frameAt (max rate 1) s) n n') ∧
    (mutedFirst x (replay (Session.new rate capacity).graph
        (before ++ [.stored x .position (.float s)])) since = true →
      PlaysFrom p₀.samples p₀.position n n') := by
  have hprefix : before <+: ((Session.new rate capacity).tale steps).happenings := by
    rw [htale, List.append_assoc]
    exact List.prefix_append _ _
  have hvalid := (Session.Course.tidy ⟨before, hprefix, rfl⟩).valid x n₀ hn₀
  obtain ⟨n₁, hn₁, hcued⟩ := at_of_stored hvalid hn₀ hp₀ (max rate 1) s
  have hstored : (Happening.stored x .position (.float s)).after
      (replay (Session.new rate capacity).graph before)
      = replay (Session.new rate capacity).graph (before ++ [.stored x .position (.float s)]) := by
    rw [replay_append]
    rfl
  rw [hstored] at hn₁
  rw [replay_append] at hblock
  generalize before ++ [.stored x .position (.float s)] = hs at *
  have hsound : (replay (Session.new rate capacity).graph hs).Sound :=
    (sound_new (max rate 1) capacity).replay hs
  have hfilled : (replay (Session.new rate capacity).graph hs).Filled :=
    (filled_new (max rate 1) capacity).replay (sound_new _ _) hs
  have hrate : (replay (Session.new rate capacity).graph hs).sampleRate = max rate 1 :=
    sampleRate_replay hs _
  obtain ⟨n₂, position, hn₂, hat⟩ :=
    hcued.replay hsound hfilled hrate hn₁ halive hseeks hfirst
  have ⟨p, hp, _⟩ := hat
  have hplain := (hfilled.replay hsound since).plain hn₂ hp
  obtain ⟨rfl, hplays⟩ := hat.plays (hsound.replay since)
    ((sampleRate_replay since _).trans hrate) hplain hn₂ hblock
  refine ⟨fun hkept => ?_, fun hlost => ?_⟩
  · rwa [hkept, if_neg Bool.false_ne_true] at hplays
  · rwa [hlost, if_pos rfl] at hplays

/-- A hundred samples. -/
def hundred : Array Float32 := Array.replicate 100 1

/-- A player of a hundred samples seeks to the third of them; a block is played for another node, and
the player is suspended, but plays again before the next block. -/
def soughtBetweenBlocks : List Step :=
  [.create "p" (.samplePlayer hundred), .create "g" (.gain 1),
    .command (.set "p" .position (.float 1)), .process "g" 1,
    .command (.set "p" .suspended (.int 1)), .command (.set "p" .suspended (.int 0)),
    .process "p" 1]

/-- A player of a hundred samples seeks to the third of them, and is suspended for a block. -/
def soughtAndSuspended : List Step :=
  [.create "p" (.samplePlayer hundred), .command (.set "p" .position (.float 1)),
    .command (.set "p" .suspended (.int 1)), .process "p" 1,
    .command (.set "p" .suspended (.int 0)), .process "p" 1]

/-- What happens when a property that nobody observes is set. -/
def unobservedSet (x : NodeId) (p : PropertyId) (v : PropertyValue) : List Happening :=
  [.taken .before x p, .restored .before x p [], .stored x p v, .taken .after x p,
    .restored .after x p []]

/-- The blocks in between, in the first case. -/
def betweenBlocks : List Happening :=
  [.taken .after ⟨0, 0⟩ .position, .restored .after ⟨0, 0⟩ .position [], .deed (.pull ⟨1, 0⟩)] ++
    unobservedSet ⟨0, 0⟩ .suspended (.int 1) ++ unobservedSet ⟨0, 0⟩ .suspended (.int 0)

/-- And in the second. -/
def whileSuspended : List Happening :=
  [.taken .after ⟨0, 0⟩ .position, .restored .after ⟨0, 0⟩ .position []] ++
    unobservedSet ⟨0, 0⟩ .suspended (.int 1) ++ [.deed (.pull ⟨0, 0⟩)] ++
    unobservedSet ⟨0, 0⟩ .suspended (.int 0)

/-- What comes before the position is set, if some other nodes are made. -/
def beforeSeek (others : List Happening) : List Happening :=
  .deed (.associate (.samplePlayer (.new hundred 2)) .source) :: others ++
    [.taken .before ⟨0, 0⟩ .position, .restored .before ⟨0, 0⟩ .position []]

set_option maxRecDepth 20000 in
theorem happenings_soughtBetweenBlocks : ((Session.new 2 64).tale soughtBetweenBlocks).happenings
    = (beforeSeek [.deed (.associate .gain (.symmetric 1))]
      ++ [.stored ⟨0, 0⟩ .position (.float 1)]) ++ (betweenBlocks ++ [.deed (.pull ⟨0, 0⟩)]) := rfl

set_option maxRecDepth 20000 in
theorem happenings_soughtAndSuspended : ((Session.new 2 64).tale soughtAndSuspended).happenings
    = (beforeSeek [] ++ [.stored ⟨0, 0⟩ .position (.float 1)])
      ++ (whileSuspended ++ [.deed (.pull ⟨0, 0⟩)]) := rfl

/-- The player before its position is set. -/
theorem node_beforeSeek :
    (∃ n₀, (replay (Session.new 2 64).graph
      (beforeSeek [.deed (.associate .gain (.symmetric 1))])).node ⟨0, 0⟩ = .ok n₀ ∧
      n₀.kind = .samplePlayer ⟨hundred, 2, 0⟩) ∧
    ∃ n₀, (replay (Session.new 2 64).graph (beforeSeek [])).node ⟨0, 0⟩ = .ok n₀ ∧
      n₀.kind = .samplePlayer ⟨hundred, 2, 0⟩ :=
  ⟨⟨_, rfl, rfl⟩, _, rfl, rfl⟩

/-- The block is the first to play the player, which was not processed before. -/
theorem view_soughtBetweenBlocks :
    let sought := beforeSeek [.deed (.associate .gain (.symmetric 1))]
      ++ [.stored ⟨0, 0⟩ .position (.float 1)]
    let begun := replay (Session.new 2 64).graph sought
    (∀ k ∈ betweenBlocks, k.seeks ⟨0, 0⟩ = false) ∧
    Throughout (Alive ⟨0, 0⟩) begun betweenBlocks ∧
    sounded ⟨0, 0⟩ begun betweenBlocks = false ∧
    mutedFirst ⟨0, 0⟩ begun betweenBlocks = false ∧
    ((replay (Session.new 2 64).graph (sought ++ betweenBlocks)).sounds? ⟨0, 0⟩ ⟨0, 0⟩).isSome
      = true ∧
    (⟨hundred, 2, 0⟩ : SamplePlayer).frameAt 2 1 = 2 := by
  decide +kernel

/-- The player starts at the third sample. -/
theorem playsFrom_soughtBetweenBlocks : ∃ n n',
    (replay (Session.new 2 64).graph ((beforeSeek [.deed (.associate .gain (.symmetric 1))]
      ++ [.stored ⟨0, 0⟩ .position (.float 1)]) ++ betweenBlocks)).sounds? ⟨0, 0⟩ ⟨0, 0⟩
        = some (n, n') ∧
    PlaysFrom hundred 2 n n' := by
  obtain ⟨hseeks, halive, hfirst, hkept, hsounds, hframe⟩ := view_soughtBetweenBlocks
  obtain ⟨n₀, hn₀, hp₀⟩ := node_beforeSeek.1
  obtain ⟨⟨n, n'⟩, hsounds⟩ := Option.isSome_iff_exists.mp hsounds
  obtain ⟨hplays, -⟩ := playsFrom_of_stored 2 64 soughtBetweenBlocks
    happenings_soughtBetweenBlocks hn₀ hp₀ hseeks halive hfirst hsounds
  have hfrom := hplays hkept
  rw [show max 2 1 = 2 from rfl, hframe] at hfrom
  exact ⟨n, n', hsounds, hfrom⟩

/-- The first block that plays the player ends behind its first 64 samples. -/
theorem view_soughtAndSuspended :
    let sought := beforeSeek [] ++ [.stored ⟨0, 0⟩ .position (.float 1)]
    let begun := replay (Session.new 2 64).graph sought
    (∀ k ∈ whileSuspended, k.seeks ⟨0, 0⟩ = false) ∧
    Throughout (Alive ⟨0, 0⟩) begun whileSuspended ∧
    sounded ⟨0, 0⟩ begun whileSuspended = false ∧
    ((replay (Session.new 2 64).graph (sought ++ whileSuspended)).sounds? ⟨0, 0⟩ ⟨0, 0⟩).map
      (fun r => r.2.kind.asSamplePlayer.toOption.map SamplePlayer.position) = some (some 64) ∧
    (⟨hundred, 2, 0⟩ : SamplePlayer).frameAt 2 1 = 2 := by
  decide +kernel

/-- A seek is lost: the player does not start at the frame that was sought. -/
theorem seek_lost_soughtAndSuspended : ∃ before since n₀ p₀ n n',
    ((Session.new 2 64).tale soughtAndSuspended).happenings
      = (before ++ [.stored ⟨0, 0⟩ .position (.float 1)]) ++ (since ++ [.deed (.pull ⟨0, 0⟩)]) ∧
    (replay (Session.new 2 64).graph before).node ⟨0, 0⟩ = .ok n₀ ∧
    n₀.kind = .samplePlayer p₀ ∧
    (∀ k ∈ since, k.seeks ⟨0, 0⟩ = false) ∧
    Throughout (Alive ⟨0, 0⟩) (replay (Session.new 2 64).graph
      (before ++ [.stored ⟨0, 0⟩ .position (.float 1)])) since ∧
    sounded ⟨0, 0⟩ (replay (Session.new 2 64).graph
      (before ++ [.stored ⟨0, 0⟩ .position (.float 1)])) since = false ∧
    (replay (Session.new 2 64).graph
      ((before ++ [.stored ⟨0, 0⟩ .position (.float 1)]) ++ since)).sounds? ⟨0, 0⟩ ⟨0, 0⟩
        = some (n, n') ∧
    p₀.frameAt 2 1 = 2 ∧ ¬ PlaysFrom p₀.samples 2 n n' := by
  obtain ⟨hseeks, halive, hfirst, hsounds, hframe⟩ := view_soughtAndSuspended
  obtain ⟨n₀, hn₀, hp₀⟩ := node_beforeSeek.2
  obtain ⟨⟨n, n'⟩, hsounds, hstop⟩ := Option.map_eq_some_iff.mp hsounds
  refine ⟨_, _, n₀, _, n, n', happenings_soughtAndSuspended, hn₀, hp₀, hseeks, halive, hfirst,
    hsounds, hframe, ?_⟩
  rintro ⟨p, copied, stop, rest, -, -, hplay, hkind, -⟩
  rw [SamplePlayer.play_run blockSize (by decide)] at hplay
  cases hplay
  dsimp only at hstop
  rw [hkind] at hstop
  cases hstop

end SpatialAudio
