import SpatialAudio.Proofs.Maps

/-!
# Proofs/UpToDate — a panner over loudspeakers plays the map that its properties describe

An amplitude panner builds its map anew only in a block, and only if a property that describes the
map is marked; it may be given layouts in the meantime, or have its block given up.  As long as no such
property is marked its map is **up to date** (`UpToDate`): no happening takes that from a panner
(`UpToDate.happening`), so neither does the history of a session (`UpToDate.replay`).  A block that
processes the panner finds its map up to date or has it rebuilt first (`UpToDate.renders`).
-/

namespace SpatialAudio

open SpatialAudio.Graph

/-- The map of an amplitude panner is the one that its properties describe, unless a mark says that
they were stored. -/
structure UpToDate (n : Node) : Prop where
  plain : n.interior = none
  panner : ∃ q, n.kind = .amplitudePanner q
  current : n.properties.anyModified AmplitudePanner.mapProperties = false → Current n

variable {g g' : Graph} {x id : NodeId} {n n' : Node} {k : Happening}

/-! ## Histories -/

/-- **No happening leaves a map out of date without a mark.** -/
theorem UpToDate.happening (h : g.Sound) (hU : UpToDate n) (hn : g.node x = .ok n)
    (hn' : (k.after g).node x = .ok n') : UpToDate n' := by
  obtain ⟨q, hq⟩ := hU.panner
  have hplain : n'.interior = none := (k.samePlace h hn hn').interior.trans hU.plain
  -- without a mark there is no map that waits
  have hsame : n.properties.anyModified AmplitudePanner.mapProperties = false →
      q = ⟨AmplitudePanner.describedMap n.properties, none⟩ := fun hclean =>
    NodeKind.amplitudePanner.inj (hq.symm.trans (hU.current hclean))
  cases k.remapped h hn hq hn' with
  | arranged _ _ _ hkind hprops =>
    refine ⟨hplain, ⟨_, hkind⟩, fun hclean => ?_⟩
    rw [hprops] at hclean
    rw [Current, hkind, hprops, hsame hclean]
    rfl
  | rebuilt _ _ hcurrent => exact ⟨hplain, ⟨_, hcurrent⟩, fun _ => hcurrent⟩
  | discarded _ hkind hprops =>
    refine ⟨hplain, ⟨_, hkind⟩, fun hclean => ?_⟩
    rw [hprops] at hclean
    rw [Current, hkind, hprops, hsame hclean]
    rfl
  | refused _ hasks hprops hkind =>
    refine ⟨hplain, ⟨_, hkind⟩, fun hclean => ?_⟩
    rw [hprops, hasks.2] at hclean
    cases hclean
  | left _ hkind hquiet =>
    refine ⟨hplain, ⟨q, hkind.trans hq⟩, fun hclean => ?_⟩
    obtain ⟨hclean, hmap⟩ := hquiet hU.plain hclean
    rw [Current, hkind, hmap]
    exact hU.current hclean

/-- **A map stays up to date as long as its panner is there.** -/
theorem UpToDate.replay {hs : List Happening} (h : g.Sound) (hU : UpToDate n)
    (hn : g.node x = .ok n) (halive : Throughout (Alive x) g hs) :
    ∃ n', (SpatialAudio.replay g hs).node x = .ok n' ∧ UpToDate n' := by
  induction hs generalizing g n with
  | nil => exact ⟨n, hn, hU⟩
  | cons k hs ih =>
    obtain ⟨-, halive⟩ := throughout_cons.mp halive
    obtain ⟨n', hn'⟩ := contains_iff.mp halive.start
    exact ih (h.happening k) (hU.happening h hn hn') hn' halive

/-! ## Blocks -/

/-- What was in the outputs before does not matter. -/
theorem AmplitudePanner.process_eq (p : AmplitudePanner) (props : Properties)
    (inputs outputs : List Block) : p.process props inputs outputs
      = p.process props inputs (List.replicate outputs.length Block.silent) := by
  simp only [process, List.map_const', List.length_replicate]

/-- A panner that is up to date has the map of its properties when it is processed. -/
theorem UpToDate.current_obliged (hU : UpToDate n) : Current n.obliged := by
  obtain ⟨q, hq⟩ := hU.panner
  cases hmod : n.properties.anyModified AmplitudePanner.mapProperties with
  | true =>
    have hasks : n.Asks q := ⟨hq, hmod⟩
    rw [Current, n.properties_obliged, hasks.kind_obliged]
  | false =>
    rw [Node.obliged_of_unmarked hmod]
    exact hU.current hmod

/-- **A block that processes a panner uses the map of its properties.** -/
theorem UpToDate.renders (h : g.Sound) (hU : UpToDate n)
    (hrenders : g.renders? id x = some (n, n')) :
    n'.kind = .amplitudePanner ⟨AmplitudePanner.describedMap n.properties, none⟩ ∧
      n'.outputs = finish n.properties
        (AmplitudePanner.process ⟨AmplitudePanner.describedMap n.properties, none⟩ n.properties
          n'.inputs (List.replicate n'.layout.outputs Block.silent)) := by
  have hcurrent := hU.current_obliged
  rw [Current, n.properties_obliged] at hcurrent
  rw [renders?] at hrenders
  split at hrenders
  · next root ready g' m hready hpull hm =>
    split at hrenders
    · next hin =>
      obtain ⟨m', hm', heq⟩ := Option.map_eq_some_iff.mp hrenders
      cases heq
      have hprepared := h.prepared hready
      obtain ⟨hat, rings, rings', hturn⟩ := h.turn_obliged hready hpull hm (eq_ok_of_toOption hm')
        (hprepared.scheduled.mp hin.1)
      obtain ⟨done, hdone, hkind, houtputs, -⟩ := hturn.active (by
        rw [n.properties_obliged]
        exact hin.2)
      rw [hcurrent, n.properties_obliged] at hdone
      cases hdone
      refine ⟨hkind, ?_⟩
      rw [houtputs, n.properties_obliged, AmplitudePanner.process_eq,
        (hprepared.sound.wellFormed.fits _ _ hat).outputs, hturn.layout]
    · cases hrenders
  · cases hrenders

/-! ## New panners -/

end SpatialAudio
