import SpatialAudio.Proofs.Conduct
import SpatialAudio.Proofs.Listening
import SpatialAudio.Proofs.Validity

/-!
# Proofs/Sinks — which sinks there are, and what blocks have them write

A sink is a node that names a ring.  Happenings leave the sinks there are as they are, but for
blocks, and a new sink is one that `associate` makes (`Happening.feeds`).  A block asks a sink for no
layout (`nodeAt?_proposeAll`); it is given up, or the sink takes its turn, if it leads to the root,
and delivers what it hears into its ring (`Graph.Sound.serves`).  No other node writes into that
ring, so long as the sink is the only one that names it.
-/

namespace SpatialAudio

open SpatialAudio.Graph

variable {g g' : Graph} {x y id : NodeId} {n n' : Node} {s s' : RingSink} {r : Nat}

/-- The node `x` is a sink in the state `s`. -/
def Graph.Feeds (g : Graph) (x : NodeId) (s : RingSink) : Prop :=
  ∃ n, g.node x = .ok n ∧ n.kind = .ringSink s

/-- Only the node `x` may be a sink into ring `r`. -/
def Graph.Sole (g : Graph) (x : NodeId) (r : Nat) : Prop :=
  ∀ y s, g.Feeds y s → s.ring = r → y = x

/-- A sink is in one state. -/
theorem Graph.Feeds.unique (h : g.Feeds x s) (h' : g.Feeds x s') : s' = s := by
  obtain ⟨n, hn, hk⟩ := h
  obtain ⟨n', hn', hk'⟩ := h'
  cases hn.symm.trans hn'
  cases hk.symm.trans hk'
  rfl

/-! ## Happenings other than blocks -/

namespace Happening

/-- The handle that a block is pulled for, if the happening is one. -/
def block? : Happening → Option NodeId
  | deed (.pull id) => some id
  | _ => none

/-- The sink that the happening is to make, if it is one that does. -/
def sink? : Happening → Option RingSink
  | deed (.associate (.ringSink s) _) => some s
  | _ => none

/-- The happening takes samples out of a ring. -/
def refills : Happening → Bool
  | deed (.refill ..) => true
  | _ => false

theorem eq_of_block? {k : Happening} (h : k.block? = some id) : k = .deed (.pull id) := by
  cases k with
  | deed d =>
    cases d with
    | pull id' =>
      cases h
      rfl
    | _ => cases h
  | _ => cases h

theorem sink?_of_plain {k : Happening} (h : k.plain = true) : k.sink? = none := by
  cases k with
  | deed d =>
    cases d with
    | associate kind layout =>
      cases kind with
      | ringSink s => cases h
      | _ => rfl
    | _ => rfl
  | _ => rfl

theorem refills_of_plain {k : Happening} (h : k.plain = true) : k.refills = false := by
  cases k with
  | deed d =>
    cases d with
    | refill number ring => cases h
    | _ => rfl
  | _ => rfl

end Happening

theorem NodeKind.eq_ringSink_of_layoutApplied {k : NodeKind} (h : k.layoutApplied = .ringSink s) :
    k = .ringSink s := by
  cases k with
  | amplitudePanner p => cases h
  | _ => exact h

/-- What a deed makes of a node, it makes no sink, and a sink it leaves as it is. -/
theorem Deed.Touches.sink {α : Type} {d : Deed α} (h : d.Touches g x n n')
    (hblock : (Happening.deed d).block? = none) (hk : n'.kind = .ringSink s) :
    n.kind = .ringSink s := by
  cases d with
  | arrange id layout =>
    obtain ⟨-, rfl⟩ := h
    rw [rearrange_kind] at hk
    exact NodeKind.eq_ringSink_of_layoutApplied hk
  | observe phase id p o =>
    obtain ⟨-, rfl⟩ := h
    exact hk
  | recomputeMap id =>
    obtain ⟨-, -, -, q, q', -, hk'⟩ := h
    cases hk'.symm.trans hk
  | markRecompute id =>
    obtain ⟨-, q, -, rfl⟩ := h
    cases hk
  | adopt id strategy =>
    obtain ⟨-, m, -, rfl⟩ := h
    cases hk
  | pull id => cases hblock
  | _ => exact h.elim

/-- A new sink is the one that was to be made. -/
theorem Graph.Sound.feeds_associate (h : g.Sound) {kind : NodeKind} {layout : Layout}
    (hx : ((Deed.associate kind layout).after g).Feeds x s) :
    g.Feeds x s ∨ kind = .ringSink s ∧ x = g.nextHandle := by
  obtain ⟨n', hn', hk⟩ := hx
  change ((Graph.associate kind layout).run g).2.node x = .ok n' at hn'
  rcases associate_cases h kind layout with ⟨g', hrun, hw⟩ | ⟨e, g', hrun, -, hnode, -⟩
  · rw [hrun] at hn'
    by_cases hid : x = g.nextHandle
    · subst hid
      cases hw.self.symm.trans hn'
      exact .inr ⟨NodeKind.eq_ringSink_of_layoutApplied hk, rfl⟩
    · exact .inl ⟨n', (hw.other hid).symm.trans hn', hk⟩
  · rw [hrun] at hn'
    exact .inl ⟨n', (hnode x).symm.trans hn', hk⟩

/-- There is no sink inside a multipanner. -/
theorem Graph.Sound.feeds_assemble (h : g.Sound) {data : Dataset}
    (hx : ((Deed.assemble data).after g).Feeds x s) : g.Feeds x s := by
  obtain ⟨n', hn', hk⟩ := hx
  change ((Multipanner.assemble data).run g).2.node x = .ok n' at hn'
  cases hq : HrtfPanner.new data with
  | error a =>
    rw [Multipanner.run_assemble_of_error hq] at hn'
    exact ⟨n', hn', hk⟩
  | ok q =>
    obtain ⟨id, m, g', hrun, ha⟩ := Multipanner.run_assemble h hq
    rw [hrun] at hn'
    by_cases hmem : x ∈ id :: m.inside
    · have hother : ∀ {k ps l o e}, g'.Holds x k ps l o e → k = .ringSink s := by
        rintro k ps l o e ⟨_, _, hx⟩
        cases hx.symm.trans hn'
        exact hk
      obtain ⟨q, hhrtf⟩ := ha.hrtf
      rcases List.mem_cons.mp hmem with rfl | hmem
      · cases hother ha.panner
      · rcases Multipanner.mem_inside.mp hmem with rfl | rfl | rfl | rfl
        · cases hother ha.input
        · cases hother ha.output
        · cases hother hhrtf
        · cases hother ha.amplitude
    · exact ⟨n', (ha.others x hmem).symm.trans hn', hk⟩

/-- **A sink was there before in the same state, or was just made**, unless a block was played. -/
theorem Happening.feeds (h : g.Sound) {k : Happening} (hblock : k.block? = none)
    (hx : (k.after g).Feeds x s) : g.Feeds x s ∨ k.sink? = some s ∧ x = g.nextHandle := by
  cases k with
  | deed d =>
    cases hmakes : d.makes with
    | true =>
      match d, hmakes with
      | .associate kind layout, _ =>
        rcases h.feeds_associate hx with hx | ⟨rfl, hid⟩
        · exact .inl hx
        · exact .inr ⟨rfl, hid⟩
      | .assemble data, _ => exact .inl (h.feeds_assemble hx)
    | false =>
      obtain ⟨n', hn', hk⟩ := hx
      obtain ⟨n, hn, rfl | htouched⟩ := Deed.stems h hmakes hn'
      · exact .inl ⟨_, hn, hk⟩
      · exact .inl ⟨n, hn, Deed.Touches.sink htouched hblock hk⟩
  | taken phase id p | restored phase id p os | stored id p v =>
    obtain ⟨n', hn', hk⟩ := hx
    obtain ⟨n, hn, rfl | ⟨-, rfl⟩⟩ := h.stems_modifyProperty id p _ hn'
    · exact .inl ⟨_, hn, hk⟩
    · exact .inl ⟨n, hn, hk⟩

/-- **A ring is changed by a block, or by whoever takes samples out**; otherwise at most a new one
is put behind all others. -/
theorem Happening.rings {k : Happening} (hblock : k.block? = none) (hrefills : k.refills = false)
    (g : Graph) :
    (k.after g).rings = g.rings ∨
      ∃ capacity, (k.after g).rings = g.rings ++ [Ring.new capacity] := by
  cases hwrites : k.writes with
  | false => exact .inl (congrArg Books.rings (k.books hwrites g))
  | true =>
    match k, hwrites with
    | .deed (.pull id), _ => cases hblock
    | .deed (.addRing capacity), _ =>
      change ((Graph.addRing capacity).run g).2.rings = _ ∨
        ∃ capacity', ((Graph.addRing capacity).run g).2.rings = g.rings ++ [Ring.new capacity']
      rw [run_addRing]
      split
      · exact .inr ⟨capacity, rfl⟩
      · exact .inl rfl
    | .deed .clearFaults, _ => exact .inl rfl
    | .deed (.refill number ring), _ => cases hrefills

/-! ## Blocks -/

namespace Graph

/-- **Only panners for loudspeakers ask for layouts**; all other nodes are left alone. -/
theorem nodeAt?_proposeAll {schedule : List Nat} {refused : Option (Nat × Error)}
    (h : proposeAll schedule g = .ok (g', refused)) {j : Nat} (hn : g.nodeAt? j = some n)
    (hk : ∀ q, n.kind ≠ .amplitudePanner q) : g'.nodeAt? j = some n := by
  induction schedule generalizing g with
  | nil =>
    cases h
    exact hn
  | cons i rest ih =>
    have hother : ∀ {g₁ : Graph} {f : Node → Node}, i ≠ j → g₁.nodeAt? j = some n →
        (g₁.modifyAt i f).nodeAt? j = some n := by
      intro g₁ f hij hn
      rw [nodeAt?_modifyAt, if_neg hij]
      exact hn
    rw [proposeAll] at h
    split at h
    · exact ih h hn
    · next m hm =>
      by_cases hij : i = j
      · subst hij
        cases hn.symm.trans hm
        have hnothing : n.kind.propose n.properties = (n.kind, none) := by
          rw [NodeKind.propose]
          exact hk
        rw [hnothing] at h
        refine ih h ?_
        rw [nodeAt?_modifyAt, if_pos rfl, hn]
        rfl
      · dsimp only at h
        split at h
        · exact ih h (hother hij hn)
        · split at h
          · next happly =>
            obtain ⟨f, rfl, -⟩ := applyLayoutAt_eq_modifyAt happly
            exact ih h (hother hij (hother hij hn))
          · cases h
            exact hother hij hn
          · cases h

section Prepared

variable {root : Nat} {ready : Graph} {refused : Option (Nat × Error)}
  (h : g.Sound) (hready : g.prepare id = .ok (root, ready, refused))

include h hready

/-- A sink is asked for no layout. -/
theorem nodeAt?_prepare {j : Nat} (hn : g.nodeAt? j = some n) (hk : n.kind = .ringSink s) :
    ready.nodeAt? j = some n := by
  obtain ⟨-, -, hpropose⟩ := prepare_eq_ok.mp hready
  refine nodeAt?_proposeAll hpropose ?_ fun q hq => by cases hk.symm.trans hq
  rw [(h.begun root).nodeAt?]
  exact hn

/-- A node that is asked for a layout does not become a sink. -/
theorem feeds_of_prepare {j : Nat} {m : Node} (hm : ready.nodeAt? j = some m)
    (hk : m.kind = .ringSink s) : g.Feeds (g.handleAt j) s := by
  obtain ⟨-, -, hpropose⟩ := prepare_eq_ok.mp hready
  obtain ⟨n, hn, hbides⟩ := (within_proposeAll hpropose).back j m hm
  rw [(h.begun root).nodeAt?] at hn
  have htype : n.kind.type = .ringSink := by rw [← hbides.type, hk]; rfl
  cases hkind : n.kind with
  | ringSink t =>
    cases (nodeAt?_prepare h hready hn hkind).symm.trans hm
    exact ⟨_, node_handleAt.mpr hn, hk⟩
  | _ => rw [hkind] at htype; cases htype

theorem noSink_prepare {p : Nat → Prop}
    (hp : ∀ j t, p j → g.Feeds (g.handleAt j) t → t.ring ≠ r) : ready.NoSink p r :=
  fun j hj _ t hm hk => hp j t hj (feeds_of_prepare h hready hm hk)

theorem noSink_of_sole {p : Nat → Prop} (hsole : g.Sole x r) (hx : ¬ p x.index) :
    ready.NoSink p r := by
  refine noSink_prepare h hready fun j t hj hfeeds heq => hx ?_
  exact congrArg NodeId.index (hsole _ t hfeeds heq) ▸ hj

end Prepared

/-- What a sink does with a block, as part of all that a node leaves behind. -/
theorem process_sink {rate : Nat} {props : Properties} {inputs outputs : List Block}
    {rings : List Ring} {done : NodeKind.Processed}
    (h : (NodeKind.ringSink s).process rate props inputs outputs rings = .ok done) :
    ∃ s', done.kind = .ringSink s' ∧ s'.ring = s.ring ∧ s'.channels = s.channels ∧
      ∀ ring, rings[s.ring]? = some ring → ∃ ring', s.deliver inputs ring = .ok (s', ring') ∧
        done.rings[s.ring]? = some ring' := by
  rw [NodeKind.process] at h
  split at h
  · next ring hring =>
    obtain ⟨⟨s', ring'⟩, hdeliver, h⟩ := bind_eq_ok.mp h
    cases h
    have hlt := (List.getElem?_eq_some_iff.mp hring).1
    have hkept : s'.ring = s.ring ∧ s'.channels = s.channels := by
      rw [RingSink.deliver] at hdeliver
      split at hdeliver
      · cases hdeliver
        exact ⟨rfl, rfl⟩
      · obtain ⟨length, -, hdeliver⟩ := bind_eq_ok.mp hdeliver
        split at hdeliver <;> cases hdeliver <;> exact ⟨rfl, rfl⟩
    refine ⟨s', rfl, hkept.1, hkept.2, fun ring₁ hring₁ => ⟨ring', ?_, List.getElem?_set_self hlt⟩⟩
    cases hring.symm.trans hring₁
    exact hdeliver
  · next hnone =>
    cases h
    exact ⟨s, rfl, rfl, rfl, fun ring hring => by cases hnone.symm.trans hring⟩

/-- **What a block has the sink `x` write**: nothing, or what it hears if it is rendered. -/
structure Served (g g' : Graph) (id x : NodeId) (n n' : Node) (s s' : RingSink) : Prop where
  node : g'.node x = .ok n'
  kind : n'.kind = .ringSink s'
  ring : s'.ring = s.ring
  channels : s'.channels = s.channels
  delivered : ∀ ring, g.rings[s.ring]? = some ring → g.Sole x s.ring → ∃ ring',
    g'.rings[s.ring]? = some ring' ∧
      (g.renders? id x = none ∧ s' = s ∧ ring' = ring ∨
        g.renders? id x = some (n, n') ∧ s.deliver n'.inputs ring = .ok (s', ring'))

section Served

variable {root : Nat} {ready : Graph} (h : g.Sound) (hn : g.node x = .ok n)
  (hk : n.kind = .ringSink s)

include h hn hk

/-- A block that is given up leaves all sinks alone. -/
theorem served_of_refused {refusal : Nat × Error} (block : Nat)
    (hready : g.prepare id = .ok (root, ready, some refusal)) :
    ∃ n', Served g (ready.abandon root block refusal.1 refusal.2) id x n n' s s := by
  obtain ⟨hat, hhandle⟩ := node_eq_ok.mp hn
  have hprepared := h.prepared hready
  have hsilenced := within_modifyAt (g := ready) (i := root) (R := fun n n' => n'.kind = n.kind)
    (fun _ => rfl) (f := fun n => { n with outputs := n.outputs.map fun _ => Block.silent })
    fun _ _ => rfl
  obtain ⟨n', hn', hkind⟩ := hsilenced.node_forth
    (node_eq_ok.mpr ⟨nodeAt?_prepare h hready hat hk, (hprepared.handleAt _).trans hhandle⟩)
  rw [abandon]
  refine ⟨n', ?_, hkind.trans hk, rfl, rfl, fun ring hring _ => ⟨ring, ?_, .inl ?_⟩⟩
  · split <;> exact hn'
  · rw [← hring, ← hprepared.rings]
    split <;> rfl
  · exact ⟨renders?_of_refused hready, rfl, rfl⟩

variable (hready : g.prepare id = .ok (root, ready, none)) (hpull : g.pull id = .ok g')
  (heval : Evaluated g root ready g')

include hready hpull heval

/-- A sink that leads to the root takes its turn, and writes if it is not suspended. -/
theorem served_of_leads (hleads : Leads g.edges x.index root) :
    ∃ n' s', Served g g' id x n n' s s' := by
  obtain ⟨hat, hhandle⟩ := node_eq_ok.mp hn
  obtain ⟨m, n', rings, rings', hm, hat', hturn, -, -, hrings⟩ := heval.computed _ hleads
  cases (nodeAt?_prepare h hready hat hk).symm.trans hm
  have hn' : g'.node x = .ok n' := node_eq_ok.mpr ⟨hat', (heval.handles _).trans hhandle⟩
  -- the ring is as it was until the turn, and stays as the turn leaves it
  have hsole : g.Sole x s.ring → ∀ ring, g.rings[s.ring]? = some ring →
      rings[s.ring]? = some ring ∧ g'.rings[s.ring]? = rings'[s.ring]? := by
    intro hsole ring hring
    obtain ⟨hbefore, hafter⟩ :=
      hrings s.ring (noSink_of_sole h hready hsole fun hx => hx.2 rfl)
    exact ⟨hbefore.trans hring, hafter⟩
  have hrenders := renders?_eq hready hpull hn hn'
  cases hflag : n.properties.flag .suspended with
  | true =>
    obtain ⟨hkind, -, hsame⟩ := hturn.suspended hflag
    refine ⟨n', s, hn', hkind.trans hk, rfl, rfl, fun ring hring hx => ?_⟩
    obtain ⟨hbefore, hafter⟩ := hsole hx ring hring
    refine ⟨ring, by rw [hafter, hsame, hbefore], .inl ⟨?_, rfl, rfl⟩⟩
    rw [hrenders, if_neg fun hin => by rw [hflag] at hin; cases hin.2]
  | false =>
    obtain ⟨done, hdone, hkind, -, hlast⟩ := hturn.active hflag
    rw [hk] at hdone
    obtain ⟨s', hkind', hnumber, hchannels, hdelivers⟩ := process_sink hdone
    refine ⟨n', s', hn', hkind.trans hkind', hnumber, hchannels, fun ring hring hx => ?_⟩
    obtain ⟨hbefore, hafter⟩ := hsole hx ring hring
    obtain ⟨ring', hdeliver, hring'⟩ := hdelivers ring hbefore
    refine ⟨ring', by rw [hafter, hlast, hring'], .inr ⟨?_, hdeliver⟩⟩
    rw [hrenders, if_pos ⟨(h.prepared hready).scheduled.mpr hleads, hflag⟩]

/-- A sink that does not lead to the root keeps its state, and nobody else has its ring. -/
theorem served_of_not_leads (hleads : ¬ Leads g.edges x.index root) :
    ∃ n', Served g g' id x n n' s s := by
  obtain ⟨hat, hhandle⟩ := node_eq_ok.mp hn
  obtain ⟨n', hat', hkind⟩ : ∃ n', g'.nodeAt? x.index = some n' ∧ n'.kind = n.kind := by
    obtain ⟨howner, hother⟩ := heval.kept _ hleads
    by_cases howns : ∃ i, Leads g.edges i root ∧ g.Owns x.index i
    · rw [howner howns, hat]
      exact ⟨unmark n, rfl, rfl⟩
    · rw [hother howns]
      exact ⟨n, hat, rfl⟩
  have hn' : g'.node x = .ok n' := node_eq_ok.mpr ⟨hat', (heval.handles _).trans hhandle⟩
  refine ⟨n', hn', hkind.trans hk, rfl, rfl, fun ring hring hsole => ⟨ring, ?_, .inl ?_⟩⟩
  · rw [heval.rings s.ring (noSink_of_sole h hready hsole hleads), hring]
  · refine ⟨?_, rfl, rfl⟩
    rw [renders?_eq hready hpull hn hn',
      if_neg fun hin => hleads ((h.prepared hready).scheduled.mp hin.1)]

end Served

/-- **Every sink is served by every block.** -/
theorem Sound.serves (h : g.Sound) (hpull : g.pull id = .ok g') (hn : g.node x = .ok n)
    (hk : n.kind = .ringSink s) : ∃ n' s', Served g g' id x n n' s s' := by
  have hplay := hpull
  rw [pull_eq_prepare] at hplay
  obtain ⟨⟨root, ready, refused⟩, hready, hplay⟩ := bind_eq_ok.mp hplay
  cases refused with
  | some refusal =>
    obtain rfl := pure_eq_ok.mp hplay
    obtain ⟨n', hserved⟩ := served_of_refused h hn hk (g.scheduleFor root).blocks hready
    exact ⟨n', s, hserved⟩
  | none =>
    have heval := (h.prepared hready).evaluated hplay
    by_cases hleads : Leads g.edges x.index root
    · exact served_of_leads h hn hk hready hpull heval hleads
    · obtain ⟨n', hserved⟩ := served_of_not_leads h hn hk hready hpull heval hleads
      exact ⟨n', s, hserved⟩

/-- All sinks after a block were there before it, for the same rings. -/
theorem Sound.feeds_of_pull (h : g.Sound) (hpull : g.pull id = .ok g') (hx : g'.Feeds x s') :
    ∃ s, g.Feeds x s ∧ s.ring = s'.ring := by
  obtain ⟨n', hn', hk'⟩ := hx
  obtain ⟨n, hn⟩ := exists_node_of_pull hpull hn'
  obtain ⟨m', hm', hfate⟩ := h.exists_fate hpull hn
  cases hm'.symm.trans hn'
  have htype := hfate.resembles.type
  rw [hk'] at htype
  cases hk : n.kind with
  | ringSink s =>
    obtain ⟨m', s₁, hm', hk₁, hnumber, -⟩ := h.serves hpull hn hk
    cases hm'.symm.trans hn'
    cases hk₁.symm.trans hk'
    exact ⟨s, ⟨n, hn, hk⟩, hnumber.symm⟩
  | _ => rw [hk] at htype; cases htype

/-- A block leaves rings alone that no sink names. -/
theorem Sound.getElem?_rings_pull (h : g.Sound) (hpull : g.pull id = .ok g')
    (hr : ∀ y s, g.Feeds y s → s.ring ≠ r) : g'.rings[r]? = g.rings[r]? := by
  rw [pull_eq_prepare] at hpull
  obtain ⟨⟨root, ready, refused⟩, hready, hpull⟩ := bind_eq_ok.mp hpull
  have hprepared := h.prepared hready
  cases refused with
  | some refusal =>
    obtain rfl := pure_eq_ok.mp hpull
    rw [abandon, ← hprepared.rings]
    split <;> rfl
  | none =>
    exact (hprepared.evaluated hpull).rings r (noSink_prepare h hready fun _ t _ => hr _ t)

end Graph

end SpatialAudio
