import Mathlib.Data.List.TakeWhile
import SpatialAudio.Proofs.Maps
import SpatialAudio.Proofs.Validity

/-!
# Proofs/Staging — with which layout a map takes effect

A map is staged before its layout is asked for, and takes effect when the panner is given a layout.  A
map that is rebuilt on demand is dropped if its layout is refused; one that a block asked for is not.
It **waits** (`Waits`) until the map is rebuilt, another block takes the matter up, or somebody gives
the panner a layout.

The map that waits is the map that a block was given up for (`pending_iff_waits`).  So every map takes
effect together with its own layout (`Remapped.map_ne`), with one exception: a map that was refused in
a block takes effect with the next layout that the panner is given on demand, whatever that is
(`Graph.Sound.map_of_arrange`).
-/

namespace SpatialAudio

open SpatialAudio.Graph

/-- The panner `x` was there for a block that was given up for want of the layout of its map `m`, and
nothing decided about its map since. -/
inductive Waits (x : NodeId) (m : ChannelMap) (g : Graph) : List Happening → Prop
  | refused {hs : List Happening} {k : Happening} (hrefuses : k.Refuses (replay g hs) x m) :
      Waits x m g (hs ++ [k])
  | unsettled {hs : List Happening} {k : Happening} (hwaits : Waits x m g hs)
      (halive : Alive x (replay g hs)) (hsettles : ¬ k.Settles (replay g hs) x) :
      Waits x m g (hs ++ [k])

variable {g : Graph} {x : NodeId} {n n' : Node} {q q' : AmplitudePanner} {m : ChannelMap}
  {hs : List Happening} {k : Happening}

theorem waits_concat : Waits x m g (hs ++ [k]) ↔ k.Refuses (replay g hs) x m ∨
    Waits x m g hs ∧ Alive x (replay g hs) ∧ ¬ k.Settles (replay g hs) x := by
  constructor
  · intro h
    generalize hsplit : hs ++ [k] = hs' at h
    cases h with
    | refused hrefuses =>
      obtain ⟨rfl, hk⟩ := List.append_inj' hsplit rfl
      cases hk
      exact .inl hrefuses
    | unsettled hwaits halive hsettles =>
      obtain ⟨rfl, hk⟩ := List.append_inj' hsplit rfl
      cases hk
      exact .inr ⟨hwaits, halive, hsettles⟩
  · rintro (hrefuses | ⟨hwaits, halive, hsettles⟩)
    · exact .refused hrefuses
    · exact .unsettled hwaits halive hsettles

/-! ## Maps that wait -/

theorem AmplitudePanner.commit_of_none (h : q.pending = none) : q.commit = q := by
  rw [commit, h]

theorem AmplitudePanner.commit_of_some (h : q.pending = some m) : q.commit = ⟨m, none⟩ := by
  rw [commit, h]

theorem AmplitudePanner.pending_commit (q : AmplitudePanner) : q.commit.pending = none := by
  cases h : q.pending with
  | none => rw [commit_of_none h, h]
  | some m => rw [commit_of_some h]

theorem Happening.Refuses.exists_node (h : k.Refuses g x m) :
    ∃ n, g.node x = .ok n ∧ AmplitudePanner.describedMap n.properties = m := by
  cases k with
  | deed d =>
    cases d with
    | pull id =>
      obtain ⟨n, -, hn, -, hmap⟩ := h
      exact ⟨n, hn, hmap⟩
    | _ => exact h.elim
  | _ => exact h.elim

/-- A block does not both give a node a layout and refuse it one. -/
theorem Happening.Lays.not_refuses {l : Layout} (h : k.Lays g x l) : ¬ k.Refuses g x m := by
  cases k with
  | deed d =>
    cases d with
    | pull id =>
      rintro ⟨-, e, -, hup, -⟩
      obtain ⟨root, ready, culprit, hready, rfl⟩ := givesUp?_eq_some.mp hup
      obtain ⟨-, hreached, -⟩ := h
      rw [reached, hready] at hreached
      have hne : (g.handleAt culprit).index ≠ culprit :=
        of_decide_eq_true (List.mem_takeWhile_imp hreached :)
      exact hne rfl
    | _ => exact id
  | _ => exact id

theorem pending_of_assembled {g' : Graph} {id : NodeId} {m : Multipanner}
    (h : Multipanner.Assembled g id m g') (hx : x ∈ id :: m.inside) (hn' : g'.node x = .ok n')
    (hq' : n'.kind = .amplitudePanner q') : q'.pending = none := by
  have hkind : ∀ {y kind ps l o e}, g'.Holds y kind ps l o e → y = x →
      kind = .amplitudePanner q' := by
    rintro y kind ps l o e ⟨_, _, hy⟩ rfl
    cases hy.symm.trans hn'
    exact hq'
  obtain ⟨q, hhrtf⟩ := h.hrtf
  rcases List.mem_cons.mp hx with rfl | hx
  · cases hkind h.panner rfl
  · rcases Multipanner.mem_inside.mp hx with rfl | rfl | rfl | rfl
    · cases hkind h.input rfl
    · cases hkind h.output rfl
    · cases hkind hhrtf rfl
    · cases hkind h.amplitude rfl
      rfl

/-- No map waits in a panner that is new. -/
theorem Happening.pending_of_new (h : g.Sound) (hnew : ∀ n, g.node x ≠ .ok n)
    (hn' : (k.after g).node x = .ok n') (hq' : n'.kind = .amplitudePanner q') :
    q'.pending = none := by
  have hold : ∀ {T}, ¬ Stems g x T n' := fun ⟨n, hn, _⟩ => hnew n hn
  cases k with
  | deed d =>
    cases hmakes : d.makes with
    | false => exact absurd (Deed.stems h hmakes hn') hold
    | true =>
      cases d with
      | associate kind layout =>
        change ((Graph.associate kind layout).run g).2.node x = .ok n' at hn'
        rcases associate_cases h kind layout with ⟨g', hrun, hw⟩ | ⟨e, g', hrun, -, hnode, -⟩
        · rw [hrun] at hn'
          by_cases hx : x = g.nextHandle
          · subst hx
            cases hw.self.symm.trans hn'
            change kind.layoutApplied = .amplitudePanner q' at hq'
            cases kind <;> cases hq'
            exact AmplitudePanner.pending_commit _
          · exact absurd ((hw.other hx).symm.trans hn') (hnew n')
        · rw [hrun] at hn'
          exact absurd ((hnode x).symm.trans hn') (hnew n')
      | assemble data =>
        change ((Multipanner.assemble data).run g).2.node x = .ok n' at hn'
        cases hq : HrtfPanner.new data with
        | error a =>
          rw [Multipanner.run_assemble_of_error hq] at hn'
          exact absurd hn' (hnew n')
        | ok q =>
          obtain ⟨id, m, g', hrun, ha⟩ := Multipanner.run_assemble h hq
          rw [hrun] at hn'
          by_cases hx : x ∈ id :: m.inside
          · exact pending_of_assembled ha hx hn' hq'
          · exact absurd ((ha.others x hx).symm.trans hn') (hnew n')
      | _ => cases hmakes
  | taken phase id p => exact absurd (h.stems_modifyProperty id p _ hn') hold
  | restored phase id p os => exact absurd (h.stems_modifyProperty id p _ hn') hold
  | stored id p v => exact absurd (h.stems_modifyProperty id p _ hn') hold

/-- One happening more: a map waits if it is refused then, or if it did and was not decided about. -/
theorem Remapped.pending_iff (h : Remapped g x k n q n') (hn : g.node x = .ok n)
    (hq : n.kind = .amplitudePanner q) (hq' : n'.kind = .amplitudePanner q') :
    q'.pending = some m ↔ k.Refuses g x m ∨ q.pending = some m ∧ ¬ k.Settles g x := by
  -- what is decided otherwise leaves nothing to wait
  have hnone : q'.pending = none → (∀ m, ¬ k.Refuses g x m) → k.Settles g x →
      (q'.pending = some m ↔ k.Refuses g x m ∨ q.pending = some m ∧ ¬ k.Settles g x) := by
    intro hpending hrefuses hsettles
    simp [hpending, hrefuses, hsettles]
  cases h with
  | arranged hk hlays _ hkind =>
    obtain rfl := NodeKind.amplitudePanner.inj (hkind.symm.trans hq')
    exact hnone q.pending_commit (fun _ => hlays.not_refuses) (.inl ⟨_, hlays⟩)
  | rebuilt hlays _ hcurrent =>
    obtain rfl := NodeKind.amplitudePanner.inj (hcurrent.symm.trans hq')
    exact hnone rfl (fun _ => hlays.not_refuses) (.inl ⟨_, hlays⟩)
  | discarded hk hkind =>
    subst hk
    obtain rfl := NodeKind.amplitudePanner.inj (hkind.symm.trans hq')
    exact hnone rfl (fun _ => id) (.inr (.inr rfl))
  | refused hrefuses _ _ hkind =>
    obtain rfl := NodeKind.amplitudePanner.inj (hkind.symm.trans hq')
    have hsettles : k.Settles g x := .inr (.inl ⟨_, hrefuses⟩)
    simp only [hsettles, not_true_eq_false, and_false, or_false, Option.some.injEq]
    constructor
    · rintro rfl
      exact hrefuses
    · intro hm
      obtain ⟨n₁, hn₁, hmap⟩ := hm.exists_node
      cases hn.symm.trans hn₁
      exact hmap
  | left hsettles hkind =>
    obtain rfl := NodeKind.amplitudePanner.inj (hq.symm.trans (hkind.symm.trans hq'))
    have hrefuses : ¬ k.Refuses g x m := fun hm => hsettles (.inr (.inl ⟨m, hm⟩))
    rw [or_iff_right hrefuses, and_iff_left hsettles]

/-- **The map that waits is the one that a block was given up for**, and was not decided about since. -/
theorem pending_iff_waits (h : g.Sound) (hempty : ∀ x n, g.node x ≠ .ok n)
    (hn : (replay g hs).node x = .ok n) (hq : n.kind = .amplitudePanner q) :
    q.pending = some m ↔ Waits x m g hs := by
  induction hs using List.reverseRecOn generalizing n q with
  | nil => exact absurd hn (hempty x n)
  | append_singleton hs k ih =>
    have hsound := h.replay hs
    have hafter : replay g (hs ++ [k]) = k.after (replay g hs) := by rw [replay_append]; rfl
    rw [hafter] at hn
    rw [waits_concat]
    by_cases hold : ∃ n₀, (replay g hs).node x = .ok n₀
    · obtain ⟨n₀, hn₀⟩ := hold
      obtain ⟨q₀, hq₀⟩ : ∃ q₀, n₀.kind = .amplitudePanner q₀ := by
        have htype := (k.same_declaration hsound hn₀ hn).1
        rw [hq] at htype
        cases hk : n₀.kind with
        | amplitudePanner q₀ => exact ⟨q₀, rfl⟩
        | _ => rw [hk] at htype; cases htype
      have halive : Alive x (replay g hs) := contains_iff.mpr ⟨n₀, hn₀⟩
      rw [(k.remapped hsound hn₀ hq₀ hn).pending_iff hn₀ hq₀ hq, ih hn₀ hq₀, and_iff_right halive]
    · have hnew : ∀ n₀, (replay g hs).node x ≠ .ok n₀ := fun n₀ hn₀ => hold ⟨n₀, hn₀⟩
      rw [Happening.pending_of_new hsound hnew hn hq]
      refine ⟨nofun, ?_⟩
      rintro (hrefuses | ⟨-, halive, -⟩)
      · obtain ⟨n₀, hn₀, -⟩ := hrefuses.exists_node
        exact absurd hn₀ (hnew n₀)
      · exact absurd (contains_iff.mp halive) hold

/-! ## Maps that take effect -/

/-- A new map in effect was built with its layout, or waited and takes effect with a layout that was
given on demand. -/
theorem Remapped.map_ne (h : Remapped g x k n q n') (hq : n.kind = .amplitudePanner q)
    (hq' : n'.kind = .amplitudePanner q') (hmap : q'.map ≠ q.map) :
    k.Lays g x (.spread q'.map.outputs) ∧ n'.layout = .spread q'.map.outputs ∨
      ∃ l, k = .deed (.arrange x l) ∧ k.Lays g x l ∧ n'.layout = l ∧ q.pending = some q'.map := by
  cases h with
  | arranged hk hlays hlayout hkind =>
    obtain rfl := NodeKind.amplitudePanner.inj (hkind.symm.trans hq')
    refine .inr ⟨_, hk, hlays, hlayout, ?_⟩
    cases hpending : q.pending with
    | none =>
      rw [AmplitudePanner.commit_of_none hpending] at hmap
      exact absurd rfl hmap
    | some m => rw [AmplitudePanner.commit_of_some hpending]
  | rebuilt hlays hlayout hcurrent hsame =>
    obtain rfl := NodeKind.amplitudePanner.inj (hcurrent.symm.trans hq')
    rw [hsame]
    exact .inl ⟨hlays, hlayout⟩
  | discarded _ hkind =>
    obtain rfl := NodeKind.amplitudePanner.inj (hkind.symm.trans hq')
    exact absurd rfl hmap
  | refused _ _ _ hkind =>
    obtain rfl := NodeKind.amplitudePanner.inj (hkind.symm.trans hq')
    exact absurd rfl hmap
  | left _ hkind =>
    obtain rfl := NodeKind.amplitudePanner.inj (hq.symm.trans (hkind.symm.trans hq'))
    exact absurd rfl hmap

/-- A map that waits takes effect with any layout that is given on demand. -/
theorem Graph.Sound.map_of_arrange (h : g.Sound) {l : Layout} (hn : g.node x = .ok n)
    (hq : n.kind = .amplitudePanner q) (hpending : q.pending = some m) {g' : Graph}
    (happly : g.applyLayout x l = .ok g')
    (hn' : ((Happening.deed (.arrange x l)).after g).node x = .ok n') :
    n'.kind = .amplitudePanner ⟨m, none⟩ ∧ n'.layout = l := by
  have hafter : (Happening.deed (.arrange x l)).after g = g' := by
    change ((GraphM.update fun g => g.applyLayout x l).run g).2 = g'
    rw [run_update, happly]
  obtain ⟨n₀, hn₀, hw⟩ := h.exists_applyLayout happly
  cases hn.symm.trans hn₀
  rw [hafter] at hn'
  cases hw.self.symm.trans hn'
  refine ⟨?_, rearrange_layout l n⟩
  rw [rearrange_kind, hq, NodeKind.layoutApplied, AmplitudePanner.commit_of_some hpending]

/-- **A map takes effect together with its own layout**, unless it was refused in a block and the panner
is then given another layout. -/
theorem takesEffect_of_tale (rate capacity : Nat) (steps : List Step) :
    ∀ hs k, hs ++ [k] <+: ((Session.new rate capacity).tale steps).happenings →
    ∀ x n n' q q', (replay (Graph.new rate capacity) hs).node x = .ok n →
      n.kind = .amplitudePanner q →
      (replay (Graph.new rate capacity) (hs ++ [k])).node x = .ok n' →
      n'.kind = .amplitudePanner q' →
      (q'.map ≠ q.map →
        (∀ l, k = .deed (.arrange x l) → Waits x q'.map (Graph.new rate capacity) hs →
          l = .spread q'.map.outputs) →
        k.Lays (replay (Graph.new rate capacity) hs) x (.spread q'.map.outputs) ∧
          n'.layout = .spread q'.map.outputs) ∧
      -- one that was refused takes effect with whatever layout the panner is given
      ∀ m l, Waits x m (Graph.new rate capacity) hs → k = .deed (.arrange x l) →
        (∃ g', (replay (Graph.new rate capacity) hs).applyLayout x l = .ok g') →
        q' = ⟨m, none⟩ ∧ n'.layout = l := by
  intro hs k _ x n n' q q' hn hq hn' hq'
  have hsound := sound_new rate capacity
  have hempty : ∀ x n, (Graph.new rate capacity).node x ≠ .ok n := fun x n hn =>
    absurd ((node_eq_ok_iff _ _ _).mp hn) (by simp [Graph.new])
  have hwaits := fun m => pending_iff_waits (m := m) hsound hempty hn hq
  rw [replay_append] at hn'
  refine ⟨fun hmap hcond => ?_, fun m l hwait hk happly => ?_⟩
  · rcases (k.remapped (hsound.replay hs) hn hq hn').map_ne hq hq' hmap with hown |
      ⟨l, hk, hlays, hlayout, hpending⟩
    · exact hown
    · obtain rfl := hcond l hk ((hwaits _).mp hpending)
      exact ⟨hlays, hlayout⟩
  · subst hk
    obtain ⟨g', happly⟩ := happly
    obtain ⟨hkind, hlayout⟩ :=
      (hsound.replay hs).map_of_arrange hn hq ((hwaits m).mpr hwait) happly hn'
    exact ⟨NodeKind.amplitudePanner.inj (hq'.symm.trans hkind), hlayout⟩

/-! ## A map that was refused -/

/-- The panner of a handle. -/
def Graph.panner? (g : Graph) (x : NodeId) : Option AmplitudePanner :=
  (g.node x).toOption.bind fun n => n.kind.asAmplitudePanner.toOption

theorem Graph.panner?_eq_some (h : g.panner? x = some q) :
    ∃ n, g.node x = .ok n ∧ n.kind = .amplitudePanner q := by
  obtain ⟨n, hn, hq⟩ := Option.bind_eq_some_iff.mp h
  refine ⟨n, eq_ok_of_toOption hn, ?_⟩
  cases hk : n.kind with
  | amplitudePanner q' =>
    rw [hk] at hq
    rw [Option.some.inj hq]
  | _ => rw [hk] at hq; cases hq

/-- A map of six outputs is refused in a block, and then the panner is given the layout that it has. -/
def smuggled : List Step :=
  outgrown.take 4 ++ [.process "g" 1, .command (.edit "p" (.replace (.spread 2)))]

/-- What happens in it before the block. -/
def outgrowing : List Happening :=
  [.deed (.associate (.amplitudePanner .new) (.spread 0)), .deed (.recomputeMap ⟨0, 0⟩),
    .deed (.associate .gain (.symmetric 2)), .deed (.connect ⟨0, 0⟩ 0 ⟨1, 0⟩ 0),
    .taken .before ⟨0, 0⟩ .channelMap, .restored .before ⟨0, 0⟩ .channelMap [],
    .stored ⟨0, 0⟩ .channelMap (.floatArray [0, 90, 180, 270]),
    .taken .after ⟨0, 0⟩ .channelMap, .restored .after ⟨0, 0⟩ .channelMap []]

theorem happenings_smuggled : ((Session.new 44100 64).tale smuggled).happenings
    = (outgrowing ++ [.deed (.pull ⟨1, 0⟩)]) ++ [.deed (.arrange ⟨0, 0⟩ (.spread 2))] := rfl

/-- The map in effect before the block, after it, and with the layout. -/
theorem view_smuggled :
    let begun := replay (Graph.new 44100 64) outgrowing
    let refused := replay (Graph.new 44100 64) (outgrowing ++ [.deed (.pull ⟨1, 0⟩)])
    let last := replay (Graph.new 44100 64)
      ((outgrowing ++ [.deed (.pull ⟨1, 0⟩)]) ++ [.deed (.arrange ⟨0, 0⟩ (.spread 2))])
    (begun.givesUp? ⟨1, 0⟩).map Prod.fst = some ⟨0, 0⟩ ∧
    (begun.node ⟨0, 0⟩).toOption.map (fun n => AmplitudePanner.describedMap n.properties)
      = (last.panner? ⟨0, 0⟩).map AmplitudePanner.map ∧
    (refused.panner? ⟨0, 0⟩).map (·.map.outputs) = some 2 ∧
    (refused.applyLayout ⟨0, 0⟩ (.spread 2)).isOk = true ∧
    (last.panner? ⟨0, 0⟩).map (·.map.outputs) = some 6 ∧
    (last.node ⟨0, 0⟩).toOption.map Node.layout = some (.spread 2) := by
  decide +kernel

/-- The block refuses the map of six outputs. -/
theorem refuses_outgrowing {last : AmplitudePanner}
    (hlast : (replay (Graph.new 44100 64) ((outgrowing ++ [.deed (.pull ⟨1, 0⟩)])
      ++ [.deed (.arrange ⟨0, 0⟩ (.spread 2))])).panner? ⟨0, 0⟩ = some last) :
    (Happening.deed (.pull ⟨1, 0⟩)).Refuses (replay (Graph.new 44100 64) outgrowing) ⟨0, 0⟩
      last.map := by
  obtain ⟨hup, hmap, -⟩ := view_smuggled
  obtain ⟨⟨f, e⟩, hup, rfl⟩ := Option.map_eq_some_iff.mp hup
  rw [hlast] at hmap
  obtain ⟨n, hn, hmap⟩ := Option.map_eq_some_iff.mp hmap
  exact ⟨n, e, eq_ok_of_toOption hn, hup, hmap⟩

/-- A map that was refused takes effect with a layout that is not its own. -/
theorem smuggled_takesEffect : ∃ hs n n' q q',
    ((Session.new 44100 64).tale smuggled).happenings
      = (hs ++ [.deed (.pull ⟨1, 0⟩)]) ++ [.deed (.arrange ⟨0, 0⟩ (.spread 2))] ∧
    (replay (Graph.new 44100 64) (hs ++ [.deed (.pull ⟨1, 0⟩)])).node ⟨0, 0⟩ = .ok n ∧
    n.kind = .amplitudePanner q ∧
    (replay (Graph.new 44100 64) ((hs ++ [.deed (.pull ⟨1, 0⟩)])
      ++ [.deed (.arrange ⟨0, 0⟩ (.spread 2))])).node ⟨0, 0⟩ = .ok n' ∧
    n'.kind = .amplitudePanner q' ∧
    (Happening.deed (.pull ⟨1, 0⟩)).Refuses (replay (Graph.new 44100 64) hs) ⟨0, 0⟩ q'.map ∧
    q'.map ≠ q.map ∧ q'.map.outputs = 6 ∧ n'.layout = .spread 2 ∧
    ¬ (Happening.deed (.arrange ⟨0, 0⟩ (.spread 2))).Lays
      (replay (Graph.new 44100 64) (hs ++ [.deed (.pull ⟨1, 0⟩)])) ⟨0, 0⟩ (.spread q'.map.outputs) := by
  obtain ⟨-, -, hbefore, -, hafter, hlayout⟩ := view_smuggled
  obtain ⟨q, hq, htwo⟩ := Option.map_eq_some_iff.mp hbefore
  obtain ⟨q', hq', hsix⟩ := Option.map_eq_some_iff.mp hafter
  have hrefuses := refuses_outgrowing hq'
  obtain ⟨n, hn, hq⟩ := panner?_eq_some hq
  obtain ⟨n', hn', hq'⟩ := panner?_eq_some hq'
  rw [hn'] at hlayout
  refine ⟨outgrowing, n, n', q, q', happenings_smuggled, hn, hq, hn', hq', hrefuses,
    fun hsame => ?_, hsix, Option.some.inj hlayout, ?_⟩
  · rw [hsame, htwo] at hsix
    cases hsix
  · rintro ⟨-, hspread, -⟩
    rw [hsix] at hspread
    cases hspread

/-- The map in effect before and after the first map of the panner is built. -/
theorem view_made :
    ((replay (Graph.new 44100 64) (outgrowing.take 1)).panner? ⟨0, 0⟩).map (·.map.outputs)
      = some 0 ∧
    ((replay (Graph.new 44100 64) (outgrowing.take 2)).panner? ⟨0, 0⟩).map (·.map.outputs)
      = some 2 := by
  decide +kernel

/-- The first map of the panner takes effect with its layout, the one that was refused with another. -/
theorem takesEffect_smuggled : ∃ n n' q q' m,
    (replay (Graph.new 44100 64) (outgrowing.take 2)).node ⟨0, 0⟩ = .ok n ∧
    n.kind = .amplitudePanner q ∧ q.map.outputs = 2 ∧ n.layout = .spread 2 ∧
    Waits ⟨0, 0⟩ m (Graph.new 44100 64) (outgrowing ++ [.deed (.pull ⟨1, 0⟩)]) ∧
    m.outputs = 6 ∧
    ((Session.new 44100 64).afterSteps smuggled).graph.node ⟨0, 0⟩ = .ok n' ∧
    n'.kind = .amplitudePanner q' ∧ q' = ⟨m, none⟩ ∧ n'.layout = .spread 2 := by
  obtain ⟨hnone, htwo⟩ := view_made
  obtain ⟨q₀, hq₀, hnone⟩ := Option.map_eq_some_iff.mp hnone
  obtain ⟨q, hq, htwo⟩ := Option.map_eq_some_iff.mp htwo
  obtain ⟨n₀, hn₀, hq₀⟩ := panner?_eq_some hq₀
  obtain ⟨n, hn, hq⟩ := panner?_eq_some hq
  have hfirst : outgrowing.take 1 ++ [.deed (.recomputeMap ⟨0, 0⟩)]
      <+: ((Session.new 44100 64).tale smuggled).happenings := by
    rw [happenings_smuggled, List.append_assoc]
    exact (List.take_prefix 2 outgrowing).trans (List.prefix_append _ _)
  obtain ⟨hown, -⟩ := takesEffect_of_tale 44100 64 smuggled _ _ hfirst _ _ _ _ _ hn₀ hq₀ hn hq
  have hne : q.map ≠ q₀.map := by
    intro hsame
    rw [hsame, hnone] at htwo
    cases htwo
  obtain ⟨-, hlayout⟩ := hown hne fun l hk => by cases hk
  obtain ⟨-, -, hbefore, happly, hafter, -⟩ := view_smuggled
  obtain ⟨q₁, hq₁, -⟩ := Option.map_eq_some_iff.mp hbefore
  obtain ⟨q', hq', hsix⟩ := Option.map_eq_some_iff.mp hafter
  have hwaits : Waits ⟨0, 0⟩ q'.map (Graph.new 44100 64) (outgrowing ++ [.deed (.pull ⟨1, 0⟩)]) :=
    .refused (refuses_outgrowing hq')
  obtain ⟨n₁, hn₁, hq₁⟩ := panner?_eq_some hq₁
  obtain ⟨n', hn', hq'⟩ := panner?_eq_some hq'
  have hlast : (outgrowing ++ [.deed (.pull ⟨1, 0⟩)]) ++ [.deed (.arrange ⟨0, 0⟩ (.spread 2))]
      <+: ((Session.new 44100 64).tale smuggled).happenings := by
    rewrite [happenings_smuggled]
    exact List.prefix_rfl
  obtain ⟨-, hany⟩ := takesEffect_of_tale 44100 64 smuggled _ _ hlast _ _ _ _ _ hn₁ hq₁ hn' hq'
  obtain ⟨heq, hlayout'⟩ := hany q'.map (.spread 2) hwaits rfl (isOk_iff.mp happly)
  refine ⟨n, n', q, q', q'.map, hn, hq, htwo, htwo ▸ hlayout, hwaits, hsix, ?_, hq', heq, hlayout'⟩
  rw [← replay_tale, happenings_smuggled]
  exact hn'

end SpatialAudio
