import SpatialAudio.Proofs.Offers

/-!
# Proofs/Delivery — what a consumer gets from a sink

All that happens in a session keeps a ring in step with what its sink offers (`Fed`), from the
making of the ring on; before that there is nothing to keep (`Absent`).  A block is the one happening
that writes into a ring (`Fed.pulled`), and one step takes samples out (`Fed.drained`).  So after any
steps the consumer has got, and will get, whole blocks in order, and the sink has counted the others
(`delivery`).
-/

namespace SpatialAudio

open SpatialAudio.Graph

variable {g g' : Graph} {x id : NodeId} {s s' : RingSink} {r c capacity : Nat}

/-! ## Rings and their sinks -/

/-- There is no ring `r` yet. -/
structure Absent (r : Nat) (g : Graph) : Prop where
  ring : g.rings[r]? = none
  sinks : ∀ x s, g.Feeds x s → s.ring ≠ r

/-- There is a ring `r`, to which `offers` were made and out of which `popped` were taken, and no
more than one sink for it. -/
structure Fed (r c capacity : Nat) (offers : List Offer) (popped : List Float32) (g : Graph) :
    Prop where
  positive : 0 < c
  ring : ∃ ring, g.rings[r]? = some ring ∧ Streamed c capacity offers popped ring
  sole : ∀ x s, g.Feeds x s → s.ring = r → g.Sole x r
  sinks : ∀ x s, g.Feeds x s → s.ring = r → s.channels = c ∧ s.dropped = lost offers

section Fed

variable {past : List Offer} {popped : List Float32}

theorem Fed.lt (h : Fed r c capacity past popped g) : r < g.rings.length := by
  obtain ⟨ring, hring, -⟩ := h.ring
  exact (List.getElem?_eq_some_iff.mp hring).1

/-- What leaves the ring alone and adds no sink for it, keeps all this. -/
theorem Fed.spared (h : Fed r c capacity past popped g) (hring : g'.rings[r]? = g.rings[r]?)
    (hsinks : ∀ x s, g'.Feeds x s → s.ring = r → g.Feeds x s) :
    Fed r c capacity past popped g' where
  positive := h.positive
  ring := by
    rw [hring]
    exact h.ring
  sole x s hx hr y t hy ht := h.sole x s (hsinks x s hx hr) hr y t (hsinks y t hy ht) ht
  sinks x s hx hr := h.sinks x s (hsinks x s hx hr) hr

/-- **A block**: what the sink offers is queued, or counted. -/
theorem Fed.pulled (h : Fed r c capacity past popped g) (hs : g.Sound)
    (hpull : g.pull id = .ok g') :
    Fed r c capacity (past ++ g.offered id r) popped g' := by
  by_cases hsink : ∃ x s, g.Feeds x s ∧ s.ring = r
  · obtain ⟨x, s, hx, rfl⟩ := hsink
    have hsole := h.sole x s hx rfl
    obtain ⟨hchannels, hdropped⟩ := h.sinks x s hx rfl
    obtain ⟨ring, hring, hstream⟩ := h.ring
    obtain ⟨n, hn, hk⟩ := hx
    obtain ⟨n', s', hn', hk', hnumber, hchannels', hserves⟩ := hs.serves hpull hn hk
    obtain ⟨ring', hring', hcases⟩ := hserves ring hring hsole
    -- whatever the block did, its sinks for the ring are the one there was
    have hafter : ∀ offered, Streamed c capacity (past ++ offered) popped ring' →
        s'.dropped = s.dropped + lost offered →
          Fed s.ring c capacity (past ++ offered) popped g' := by
      intro offered hstream' hdropped'
      have honly : ∀ y t, g'.Feeds y t → t.ring = s.ring → y = x := by
        intro y t hy ht
        obtain ⟨t₀, hy₀, ht₀⟩ := hs.feeds_of_pull hpull hy
        exact hsole y t₀ hy₀ (ht₀.trans ht)
      refine ⟨h.positive, ⟨ring', hring', hstream'⟩, fun y t hy ht z u hz hu => ?_,
        fun y t hy ht => ?_⟩
      · exact (honly z u hz hu).trans (honly y t hy ht).symm
      · obtain rfl := honly y t hy ht
        cases Feeds.unique ⟨n', hn', hk'⟩ hy
        refine ⟨hchannels'.trans hchannels, ?_⟩
        rw [hdropped', hdropped, lost, lost, lost, List.countP_append]
    have hroom : g.room s.ring = ring.available := by
      rw [room, hring]
      rfl
    rw [offered_of_sole hn hk hsole]
    rcases hcases with ⟨hrenders, rfl, rfl⟩ | ⟨hrenders, hdeliver⟩
    · rw [hrenders]
      exact hafter [] (by rwa [List.append_nil]) rfl
    · rw [hrenders]
      rcases RingSink.deliver_eq_ok hdeliver with ⟨hempty, rfl, rfl⟩ | ⟨hinputs, rfl, hcount⟩
      · simp only [hempty, if_true]
        exact hafter [] (by rwa [List.append_nil]) rfl
      · simp only [hinputs, if_false, hroom]
        exact hafter _ (hstream.offer h.positive hchannels rfl) hcount
  · have hnone : ∀ y t, g.Feeds y t → t.ring ≠ r := fun y t hy ht => hsink ⟨y, t, hy, ht⟩
    rw [offered_eq_nil hnone, List.append_nil]
    refine h.spared (hs.getElem?_rings_pull hpull hnone) fun y t hy ht => ?_
    obtain ⟨t₀, hy₀, ht₀⟩ := hs.feeds_of_pull hpull hy
    exact absurd (ht₀.trans ht) (hnone y t₀ hy₀)

theorem Fed.deed_pull (h : Fed r c capacity past popped g) (hs : g.Sound) (id : NodeId) :
    Fed r c capacity (past ++ g.offered id r) popped ((Deed.pull id).after g) := by
  rw [Deed.after, Deed.run, run_update]
  cases hpull : g.pull id with
  | ok g' => exact h.pulled hs hpull
  | error e =>
    have hnone : g.offered id r = [] := by
      refine List.eq_nil_iff_forall_not_mem.mpr fun o ho => ?_
      obtain ⟨x, n, n', s, hrenders, -⟩ := mem_offered.mp ho
      cases (renders?_of_error hpull).symm.trans hrenders
    rw [hnone, List.append_nil]
    exact h

/-- Whatever is no block, takes no samples out and makes no sink for the ring, spares it. -/
theorem Fed.beside (h : Fed r c capacity past popped g) (hs : g.Sound) {k : Happening}
    (hblock : k.block? = none) (hrefills : k.refills = false)
    (hsink : ∀ s, k.sink? = some s → s.ring ≠ r) : Fed r c capacity past popped (k.after g) := by
  refine h.spared ?_ fun x s hx hr => ?_
  · rcases Happening.rings hblock hrefills g with hsame | ⟨added, hadded⟩
    · rw [hsame]
    · rw [hadded, List.getElem?_append_left h.lt]
  · rcases Happening.feeds hs hblock hx with hx | ⟨hmade, -⟩
    · exact hx
    · exact absurd hr (hsink s hmade)

/-- **What a happening does to a ring**, unless it takes something out. -/
theorem Fed.happening (h : Fed r c capacity past popped g) (hs : g.Sound) {k : Happening}
    (hk : k.plain = true) : Fed r c capacity (past ++ k.offers r g) popped (k.after g) := by
  cases hblock : k.block? with
  | some id =>
    obtain rfl := Happening.eq_of_block? hblock
    exact h.deed_pull hs id
  | none =>
    rw [Happening.offers_eq_nil hblock, List.append_nil]
    refine h.beside hs hblock (Happening.refills_of_plain hk) fun s hsink => ?_
    cases (Happening.sink?_of_plain hk).symm.trans hsink

/-- **What a whole order of happenings does to a ring.** -/
theorem Fed.orderly {ks : List Happening} (hks : Orderly g ks) (hs : g.Sound)
    (h : Fed r c capacity past popped g) :
    Fed r c capacity (past ++ offers r g ks) popped (replay g ks) := by
  induction hks generalizing past with
  | nil => exact (List.append_nil past).symm ▸ h
  | @plain g k ks hk _ ih =>
    rw [offers, ← List.append_assoc]
    exact ih (hs.happening k) (h.happening hs hk)
  | @sink g added channels layout ks _ _ ih =>
    have hring := h.beside hs (k := .deed (.addRing added)) rfl rfl fun s hs => by cases hs
    have hsound := hs.happening (.deed (.addRing added))
    refine ih (hsound.happening (.deed (.associate _ layout))) (hring.beside hsound
      (k := .deed (.associate (.ringSink (.new g.rings.length channels)) layout)) rfl rfl ?_)
    -- the sink is one for the ring behind all others
    intro s hs
    cases hs
    exact Nat.ne_of_gt h.lt

theorem Absent.le (h : Absent r g) : g.rings.length ≤ r := List.getElem?_eq_none_iff.mp h.ring

/-- A ring that is not there yet is not written into; it may come to be, without a sink. -/
theorem Absent.happening (h : Absent r g) (hs : g.Sound) {k : Happening} (hk : k.plain = true) :
    k.offers r g = [] ∧
      (Absent r (k.after g) ∨ ∃ capacity, Fed r 1 capacity [] [] (k.after g)) := by
  cases hblock : k.block? with
  | some id =>
    obtain rfl := Happening.eq_of_block? hblock
    refine ⟨offered_eq_nil h.sinks id, .inl ?_⟩
    change Absent r ((GraphM.update fun g => g.pull id).run g).2
    rw [run_update]
    cases hpull : g.pull id with
    | error e => exact h
    | ok g' =>
      refine ⟨(hs.getElem?_rings_pull hpull h.sinks).trans h.ring, fun x s hx hr => ?_⟩
      obtain ⟨t, ht, hnumber⟩ := hs.feeds_of_pull hpull hx
      exact h.sinks x t ht (hnumber.trans hr)
  | none =>
    have hsinks : ∀ x s, (k.after g).Feeds x s → s.ring ≠ r := by
      intro x s hx
      rcases Happening.feeds hs hblock hx with hx | ⟨hmade, -⟩
      · exact h.sinks x s hx
      · cases (Happening.sink?_of_plain hk).symm.trans hmade
    refine ⟨Happening.offers_eq_nil hblock r g, ?_⟩
    rcases Happening.rings hblock (Happening.refills_of_plain hk) g with hsame | ⟨capacity, hadded⟩
    · exact .inl ⟨by rw [hsame]; exact h.ring, hsinks⟩
    · rcases Nat.eq_or_lt_of_le h.le with rfl | hlt
      · have hring : (k.after g).rings[g.rings.length]? = some (Ring.new capacity) := by
          rw [hadded, List.getElem?_concat_length]
        exact .inr ⟨capacity, Nat.one_pos, ⟨_, hring, streamed_new 1 capacity⟩,
          fun x s hx hr => absurd hr (hsinks x s hx), fun x s hx hr => absurd hr (hsinks x s hx)⟩
      · refine .inl ⟨List.getElem?_eq_none ?_, hsinks⟩
        rw [hadded, List.length_append]
        exact hlt

/-- **A ring that is made with its sink**: nothing was offered to it yet. -/
theorem Absent.sink (h : Absent r g) (hs : g.Sound) (channels : Nat) (layout : Layout)
    (hfits : Memory.fits capacity Memory.sampleSize = true) :
    let made := (Deed.associate (.ringSink (.new g.rings.length channels)) layout).after
      ((Deed.addRing capacity).after g)
    (g.rings.length < r → Absent r made) ∧
      (g.rings.length = r → Fed r (max channels 1) capacity [] [] made) := by
  intro made
  have hadded : ((Deed.addRing capacity).after g).rings = g.rings ++ [Ring.new capacity] := by
    rw [Deed.after, Deed.run, run_addRing, if_pos hfits]
  have hrings : made.rings = g.rings ++ [Ring.new capacity] := by
    refine (congrArg Books.rings (Deed.books (.associate _ _) rfl _)).trans hadded
  have hsinks : ∀ x s, made.Feeds x s → g.Feeds x s ∨ s = .new g.rings.length channels ∧
      x = ((Deed.addRing capacity).after g).nextHandle := by
    intro x s hx
    rcases (hs.happening (.deed (.addRing capacity))).feeds_associate hx with hx | ⟨hk, hid⟩
    · rcases Happening.feeds hs (k := .deed (.addRing capacity)) rfl hx with hx | ⟨hk, -⟩
      · exact .inl hx
      · cases hk
    · cases hk
      exact .inr ⟨rfl, hid⟩
  refine ⟨fun hlt => ⟨List.getElem?_eq_none ?_, fun x s hx => ?_⟩, ?_⟩
  · rw [hrings, List.length_append]
    exact hlt
  · rcases hsinks x s hx with hx | ⟨rfl, -⟩
    · exact h.sinks x s hx
    · exact Nat.ne_of_lt hlt
  · rintro rfl
    refine ⟨Nat.lt_of_lt_of_le Nat.one_pos (Nat.le_max_right _ _), ⟨_, ?_, streamed_new _ capacity⟩,
      fun x s hx hr y t hy ht => ?_, fun x s hx hr => ?_⟩
    · rw [hrings, List.getElem?_concat_length]
    · have honly : ∀ z u, made.Feeds z u → u.ring = g.rings.length →
          z = ((Deed.addRing capacity).after g).nextHandle := fun z u hz hu =>
        (hsinks z u hz).elim (fun hz => absurd hu (h.sinks z u hz)) And.right
      exact (honly y t hy ht).trans (honly x s hx hr).symm
    · rcases hsinks x s hx with hx | ⟨rfl, -⟩
      · exact absurd hr (h.sinks x s hx)
      · exact ⟨rfl, rfl⟩

/-- A ring that is not there, or all that was offered to it and taken out of it. -/
def Tracked (r : Nat) (past : List Offer) (popped : List Float32) (g : Graph) : Prop :=
  past = [] ∧ popped = [] ∧ Absent r g ∨ ∃ c capacity, Fed r c capacity past popped g

theorem Absent.orderly {ks : List Happening} (hks : Orderly g ks) (hs : g.Sound)
    (h : Absent r g) : Tracked r (offers r g ks) [] (replay g ks) := by
  induction hks with
  | nil => exact .inl ⟨rfl, rfl, h⟩
  | @plain g k ks hk hks ih =>
    obtain ⟨hnone, hafter⟩ := h.happening hs hk
    rw [offers, hnone, List.nil_append]
    rcases hafter with hafter | ⟨capacity, hafter⟩
    · exact ih (hs.happening k) hafter
    · exact .inr ⟨1, capacity, Fed.orderly hks (hs.happening k) hafter⟩
  | @sink g capacity channels layout ks hfits hks ih =>
    have hmade := (hs.happening (.deed (.addRing capacity))).happening
      (.deed (.associate (.ringSink (.new g.rings.length channels)) layout))
    obtain ⟨habsent, hfed⟩ := h.sink hs _ layout hfits
    rcases Nat.eq_or_lt_of_le h.le with heq | hlt
    · have hrest := Fed.orderly hks hmade (hfed heq)
      exact .inr ⟨_, capacity, hrest⟩
    · exact ih hmade (habsent hlt)

end Fed

/-! ## Steps -/

/-- The samples that a step takes out of ring `r`. -/
def Step.popped (r : Nat) (s : Session) : Step → List Float32
  | .drain label limit _ => if s.sinks.get? label = some r then (s.drained r limit).1 else []
  | _ => []

/-- The samples that steps take out of ring `r`. -/
def Session.popped (r : Nat) (s : Session) : List Step → List Float32
  | [] => []
  | step :: rest => step.popped r s ++ (s.step step).2.popped r rest

theorem Step.popped_eq_nil {step : Step} (h : step.takesOut = false) (r : Nat) (s : Session) :
    step.popped r s = [] := by
  cases step with
  | drain => cases h
  | _ => rfl

section Steps

variable {past : List Offer} {popped : List Float32} {s : Session}

/-- **Taking samples out** of a ring leaves all others alone. -/
theorem Fed.drained (h : Fed r c capacity past popped s.graph) (number : Nat) (limit : Option Nat) :
    Fed r c capacity past (popped ++ if number = r then (s.drained r limit).1 else [])
      ((Deed.refill number (s.drained number limit).2).after s.graph) := by
  refine ⟨h.positive, ?_, h.sole, h.sinks⟩
  change ∃ ring, (s.graph.rings.set number (s.drained number limit).2)[r]? = some ring ∧ _
  split
  · next heq =>
    subst heq
    obtain ⟨ring, hring, hstream⟩ := h.ring
    have hpop : s.drained number limit = ring.pop (limit.getD ring.queued.length) := by
      rw [Session.drained, hring]
      rfl
    rw [List.getElem?_set_self h.lt, hpop]
    exact ⟨_, rfl, hstream.pop _⟩
  · next hne =>
    rw [List.getElem?_set_ne hne, List.append_nil]
    exact h.ring

/-- **What a step does to a ring.** -/
theorem Fed.step (h : Fed r c capacity past popped s.graph) (hs : s.graph.Sound) (step : Step) :
    Fed r c capacity (past ++ offers r s.graph (step.tale s).happenings)
      (popped ++ step.popped r s) (s.step step).2.graph := by
  rw [graph_step]
  cases htakes : step.takesOut with
  | false =>
    rw [Step.popped_eq_nil htakes, List.append_nil]
    exact h.orderly (Step.orderly htakes s) hs
  | true =>
    match step, htakes with
    | .takeFaults, _ =>
      have hpopped : Step.takeFaults.popped r s = [] := rfl
      rw [tale_takeFaults, hpopped, List.append_nil]
      exact (List.append_nil past).symm ▸ h.beside hs (k := .deed .clearFaults) rfl rfl nofun
    | .drain label limit probe, _ =>
      rw [tale_drain, Step.popped]
      cases s.sinks.get? label with
      | none =>
        rw [if_neg nofun, List.append_nil]
        exact (List.append_nil past).symm ▸ h
      | some number =>
        simp only [Option.some.injEq]
        exact (List.append_nil past).symm ▸ h.drained number limit

theorem Absent.step (h : Absent r s.graph) (hs : s.graph.Sound) (step : Step) :
    Tracked r (offers r s.graph (step.tale s).happenings) (step.popped r s)
      (s.step step).2.graph := by
  rw [graph_step]
  cases htakes : step.takesOut with
  | false =>
    rw [Step.popped_eq_nil htakes]
    exact h.orderly (Step.orderly htakes s) hs
  | true =>
    match step, htakes with
    | .takeFaults, _ => exact .inl ⟨rfl, rfl, h.ring, h.sinks⟩
    | .drain label limit probe, _ =>
      rw [tale_drain, Step.popped]
      cases s.sinks.get? label with
      | none => exact .inl ⟨rfl, rfl, h⟩
      | some number =>
        have hnone : (s.drained r limit).1 = [] := by
          rw [Session.drained, h.ring]
          exact List.take_nil
        refine .inl ⟨rfl, by rw [hnone, ite_self], ?_, h.sinks⟩
        change (s.graph.rings.set number _)[r]? = none
        rw [List.getElem?_eq_none_iff, List.length_set]
        exact h.le

/-- What every step keeps, steps keep. -/
theorem tracked_steps {I : List Offer → List Float32 → Graph → Prop}
    (hI : ∀ {past popped} {s : Session}, I past popped s.graph → s.graph.Sound → ∀ step : Step,
      I (past ++ offers r s.graph (step.tale s).happenings) (popped ++ step.popped r s)
        (s.step step).2.graph)
    (h : I past popped s.graph) (hs : s.graph.Sound) (steps : List Step) :
    I (past ++ offers r s.graph (s.tale steps).happenings) (popped ++ s.popped r steps)
      (s.afterSteps steps).graph := by
  induction steps generalizing past popped s with
  | nil =>
    rw [Session.popped, Session.tale, Tale.happenings_empty, offers, List.append_nil,
      List.append_nil]
    exact h
  | cons step rest ih =>
    have hsound : (s.step step).2.graph.Sound := by
      rw [graph_step]
      exact hs.replay _
    rw [Session.popped, Session.tale, Tale.happenings_append, offers_append, ← List.append_assoc,
      ← List.append_assoc, ← graph_step]
    exact ih (hI h hs step) hsound

theorem Tracked.step (h : Tracked r past popped s.graph) (hs : s.graph.Sound) (step : Step) :
    Tracked r (past ++ offers r s.graph (step.tale s).happenings) (popped ++ step.popped r s)
      (s.step step).2.graph := by
  rcases h with ⟨rfl, rfl, h⟩ | ⟨c, capacity, h⟩
  · exact h.step hs step
  · exact .inr ⟨c, capacity, h.step hs step⟩

/-- **In every session, all that was offered to a ring was queued or dropped.** -/
theorem tracked_session (rate capacity r : Nat) (steps : List Step) :
    let start := Session.new rate capacity
    Tracked r (offers r start.graph (start.tale steps).happenings) (start.popped r steps)
      (start.afterSteps steps).graph := by
  intro start
  have hstart : Absent r start.graph := by
    refine ⟨rfl, fun x s ⟨n, hn, _⟩ => ?_⟩
    cases nodeAt?_of_node hn
  exact tracked_steps (r := r) (I := Tracked r) Tracked.step (.inl ⟨rfl, rfl, hstart⟩)
    (sound_new (max rate 1) capacity) steps

/-! ### Making a sink -/

/-- The capacity of a ring for some blocks. -/
def ringCapacity (channels blocks : Nat) : Nat := max channels 1 * blockSize * max blocks 1

/-- **Making a sink makes its ring, and names both.** -/
theorem run_create_sink (s : Session) (label : Label) (channels blocks : Nat) :
    (Step.create label (.ringSink channels blocks)).run.run s =
      match (Graph.addRing (ringCapacity channels blocks)).run s.graph with
      | (.error e, g) => (.error e, { s with graph := g })
      | (.ok ring, g) =>
        match (Graph.associate (.ringSink (.new ring (max channels 1)))
            (.sink (max channels 1))).run g with
        | (.error e, g) => (.error e, { s with graph := g })
        | (.ok id, g) =>
          (.ok (.answer (.node id)),
            { s with
              graph := g
              nodes := s.nodes.bind label id
              sinks := s.sinks.bind label ring }) := by
  rw [Step.run, Creation.run, run_bind, run_bind, run_onGraph, ringCapacity]
  rcases (Graph.addRing (max channels 1 * blockSize * max blocks 1)).run s.graph with ⟨e | ring, g⟩
  · rfl
  · dsimp only
    rw [associateAs, run_bind, run_onGraph]
    dsimp only
    rcases (Graph.associate (.ringSink (.new ring (max channels 1)))
      (.sink (max channels 1))).run g with ⟨e | id, g'⟩ <;> rfl

/-- A step that reports a node has come to its end. -/
theorem run_of_reports_node {step : Step} (h : (s.step step).1 = .answer (.node x)) :
    step.run.run s = (.ok (.answer (.node x)), (s.step step).2) := by
  rw [Session.step] at h ⊢
  rcases hrun : step.run.run s with ⟨(e | a) | report, s'⟩ <;> rw [hrun] at h <;> cases h
  rfl

/-- A sink that was made is there, with an empty ring of its own. -/
theorem fed_create_sink {label : Label} {channels blocks : Nat} (hs : s.graph.Sound)
    (hring : Absent s.graph.rings.length s.graph)
    (h : (s.step (.create label (.ringSink channels blocks))).1 = .answer (.node x)) :
    let made := (s.step (.create label (.ringSink channels blocks))).2
    let r := s.graph.rings.length
    made.sinks.get? label = some r ∧ made.graph.Feeds x ⟨r, max channels 1, 0⟩ ∧
      Fed r (max channels 1) (ringCapacity channels blocks) [] [] made.graph := by
  intro made r
  have hrun : _ = (Except.ok (Report.answer (.node x)), made) := run_of_reports_node h
  rw [run_create_sink] at hrun
  by_cases hfits : Memory.fits (ringCapacity channels blocks) Memory.sampleSize = true
  · have hadded : (Graph.addRing (ringCapacity channels blocks)).run s.graph
        = (.ok r, (Deed.addRing (ringCapacity channels blocks)).after s.graph) := by
      rw [Deed.after, Deed.run, run_addRing, if_pos hfits]
    have hsound : ((Deed.addRing (ringCapacity channels blocks)).after s.graph).Sound :=
      hs.happening (.deed (.addRing (ringCapacity channels blocks)))
    rw [hadded] at hrun
    dsimp only at hrun
    rcases associate_cases hsound (.ringSink (.new r (max channels 1))) (.sink (max channels 1))
      with ⟨g', hmade, hw⟩ | ⟨e, g', hmade, -⟩
    · rw [hmade] at hrun
      obtain ⟨hreport, hmade'⟩ := Prod.mk.inj hrun
      cases hreport
      have hchannels : RingSink.new r (max channels 1) = ⟨r, max channels 1, 0⟩ := by
        rw [RingSink.new, Nat.max_eq_left (Nat.le_max_right _ _)]
      have hgraph : made.graph = (Deed.associate (.ringSink (.new r (max channels 1)))
          (.sink (max channels 1))).after
            ((Deed.addRing (ringCapacity channels blocks)).after s.graph) :=
        (congrArg Session.graph hmade').symm.trans (congrArg Prod.snd hmade).symm
      refine ⟨?_, ?_, ?_⟩
      · rw [← hmade']
        exact s.sinks.get?_bind_self label r
      · rw [← hmade', ← hchannels]
        exact ⟨_, hw.self, rfl⟩
      · have hfed := (hring.sink hs (max channels 1) (.sink (max channels 1)) hfits).2 rfl
        rwa [← hgraph, Nat.max_eq_left (Nat.le_max_right _ _)] at hfed
    · rw [hmade] at hrun
      cases hrun
  · rw [run_addRing, if_neg hfits] at hrun
    cases hrun

/-- A sink that nobody empties keeps the first blocks. -/
theorem queued_of_undrained {channels blocks : Nat}
    (h : Fed r (max channels 1) (ringCapacity channels blocks) past [] g) :
    ∃ ring, g.rings[r]? = some ring ∧
      ring.queued = (past.take (max blocks 1)).flatMap Offer.frames := by
  obtain ⟨ring, hring, hstream⟩ := h.ring
  have hpositive : 0 < blockSize * max channels 1 := Nat.mul_pos (by decide) h.positive
  have hblocks : ringCapacity channels blocks / (blockSize * max channels 1) = max blocks 1 := by
    rw [ringCapacity, Nat.mul_comm (max channels 1), Nat.mul_div_cancel_left _ hpositive]
  refine ⟨ring, hring, ?_⟩
  rw [← hblocks, ← hstream.undrained rfl]
  exact hstream.stream

/-- **Samples are taken out from the front.** -/
theorem step_drain {label : Label} {ring : Ring} (hlabel : s.sinks.get? label = some r)
    (hring : s.graph.rings[r]? = some ring) (limit : Option Nat) (probe : Probe) :
    let count := limit.getD ring.queued.length
    (Step.drain label limit probe).popped r s = ring.queued.take count ∧
    (s.step (.drain label limit probe)).1 = .drained (ring.queued.take count).length
      (probe.read (ring.queued.take count).toArray) (ring.queued.drop count).length ∧
    (s.step (.drain label limit probe)).2.graph.rings[r]?
      = some ⟨ring.capacity, ring.queued.drop count⟩ := by
  intro count
  have hlt := (List.getElem?_eq_some_iff.mp hring).1
  have hrun : s.step (.drain label limit probe)
      = (.drained (ring.queued.take count).length (probe.read (ring.queued.take count).toArray)
          (ring.queued.drop count).length,
        { s with graph := { s.graph with rings := s.graph.rings.set r (ring.pop count).2 } }) := by
    rw [Session.step, Step.run, run_bind_ok (run_named hlabel), run_bind_ok (run_get s)]
    dsimp only
    rw [hring]
    rfl
  refine ⟨?_, by rw [hrun], ?_⟩
  · rw [Step.popped, if_pos hlabel, Session.drained, hring]
    rfl
  · rw [hrun]
    exact List.getElem?_set_self hlt

end Steps

/-! ## Sessions -/

/-- **Who is rendered in a block**: the block is not given up, and the node leads to its root and is
not suspended. -/
theorem Graph.Sound.renders?_iff {n n' : Node} (h : g.Sound) :
    g.renders? id x = some (n, n') ↔ ∃ g' root, g.pull id = .ok g' ∧ g.givesUp? id = none ∧
      g.sourceSide id.index = .ok root ∧ Leads g.edges x.index root ∧ g.node x = .ok n ∧
      n.properties.flag .suspended = false ∧ g'.node x = .ok n' := by
  constructor
  · intro hrenders
    obtain ⟨g', hpull, hn, hn'⟩ := renders?_eq_some hrenders
    obtain ⟨⟨root, ready, refused⟩, hready, -⟩ := bind_eq_ok.mp (pull_eq_prepare g id ▸ hpull)
    cases refused with
    | some refusal => cases (renders?_of_refused hready).symm.trans hrenders
    | none =>
      rw [renders?_eq hready hpull hn hn'] at hrenders
      split at hrenders
      · next hin =>
        refine ⟨g', root, hpull, by rw [givesUp?, hready], (prepare_eq_ok.mp hready).2.1,
          (h.prepared hready).scheduled.mp hin.1, hn, hin.2, hn'⟩
      · cases hrenders
  · rintro ⟨g', root, hpull, hup, hroot, hleads, hn, hflag, hn'⟩
    obtain ⟨⟨root', ready, refused⟩, hready, -⟩ := bind_eq_ok.mp (pull_eq_prepare g id ▸ hpull)
    cases hroot.symm.trans (prepare_eq_ok.mp hready).2.1
    cases refused with
    | some refusal =>
      rw [givesUp?, hready] at hup
      cases hup
    | none =>
      rw [renders?_eq hready hpull hn hn']
      exact if_pos ⟨(h.prepared hready).scheduled.mpr hleads, hflag⟩

/-- What a sink answers when it is asked. -/
theorem answer_sink (hx : g.Feeds x s) :
    NodeQuery.sink.answer g x = .ok (.sink s.channels (g.room s.ring) s.dropped) := by
  obtain ⟨n, hn, hk⟩ := hx
  rw [NodeQuery.answer, hn]
  change (do let s ← n.kind.asRingSink; _) = _
  rw [hk]
  rfl

/-- **A consumer gets whole blocks, in order and with nothing in between.** -/
theorem delivery (rate capacity : Nat) (steps : List Step) :
    let start := Session.new rate capacity
    let s := start.afterSteps steps
    let past := fun r => offers r start.graph (start.tale steps).happenings
    -- what was taken out, followed by what is queued, are the blocks that there was room for
    (∀ r ring, s.graph.rings[r]? = some ring →
      start.popped r steps ++ ring.queued = ((past r).filter (·.fits)).flatMap Offer.frames ∧
      ring.queued.length + ring.available = ring.capacity) ∧
    -- a sink has a ring of its own and counts the blocks that there was no room for
    (∀ x k, s.graph.Feeds x k → ∃ ring, s.graph.rings[k.ring]? = some ring ∧
      s.graph.Sole x k.ring ∧ (∀ o ∈ past k.ring, o.channels = k.channels) ∧
      k.dropped = (past k.ring).countP (fun o => !o.fits) ∧
      NodeQuery.sink.answer s.graph x = .ok (.sink k.channels ring.available k.dropped)) ∧
    -- a block is offered by a sink that is rendered with some input
    (∀ g, start.Course steps g → ∀ id r o, o ∈ g.offered id r ↔
      ∃ g' root x n n' k, g.pull id = .ok g' ∧ g.givesUp? id = none ∧
        g.sourceSide id.index = .ok root ∧ Leads g.edges x.index root ∧
        g.node x = .ok n ∧ n.kind = .ringSink k ∧ k.ring = r ∧
        n.properties.flag .suspended = false ∧ g'.node x = .ok n' ∧ n'.inputs ≠ [] ∧
        o = ⟨k.channels, n'.inputs, g.room r⟩) ∧
    -- a block is dropped if it does not fit, and its frames have a sample of every channel
    (∀ o : Offer, (o.fits = false ↔ o.free < blockSize * o.channels) ∧
      o.frames.length = blockSize * o.channels ∧
      ∀ (i c : Nat) (_ : i < blockSize), c < o.channels →
        o.frames[i * o.channels + c]? = some ((o.inputs[c]?.map (·[i])).getD 0)) ∧
    -- samples are taken out from the front
    (∀ label limit probe r ring, s.sinks.get? label = some r → s.graph.rings[r]? = some ring →
      let count := limit.getD ring.queued.length
      (Step.drain label limit probe).popped r s = ring.queued.take count ∧
      (s.step (.drain label limit probe)).1 = .drained (ring.queued.take count).length
        (probe.read (ring.queued.take count).toArray) (ring.queued.drop count).length ∧
      (s.step (.drain label limit probe)).2.graph.rings[r]?
        = some ⟨ring.capacity, ring.queued.drop count⟩) ∧
    -- a sink for some blocks that nobody empties keeps the first of them
    ∀ label channels blocks x more,
      let made := (s.step (.create label (.ringSink channels blocks))).2
      let r := s.graph.rings.length
      (s.step (.create label (.ringSink channels blocks))).1 = .answer (.node x) →
        made.sinks.get? label = some r ∧ made.graph.Feeds x ⟨r, max channels 1, 0⟩ ∧
        (made.popped r more = [] → ∃ ring, (made.afterSteps more).graph.rings[r]? = some ring ∧
          ring.queued = ((offers r made.graph (made.tale more).happenings).take
            (max blocks 1)).flatMap Offer.frames) := by
  intro start s past
  have htracked : ∀ r, Tracked r (past r) (start.popped r steps) s.graph := fun r =>
    tracked_session rate capacity r steps
  have hsound : ∀ g, start.Course steps g → g.Sound := fun g hg =>
    (hg.reachable (.new rate capacity)).sound
  refine ⟨fun r ring hring => ?_, fun x k hx => ?_, fun g hg id r o => ?_, fun o => ⟨?_, ?_, ?_⟩,
    fun label limit probe r ring hlabel hring => step_drain hlabel hring limit probe,
    fun label channels blocks x more => ?_⟩
  · rcases htracked r with ⟨-, -, habsent⟩ | ⟨c, capacity, hfed⟩
    · cases habsent.ring.symm.trans hring
    · obtain ⟨ring', hring', hstream⟩ := hfed.ring
      cases hring.symm.trans hring'
      have hbounded := hstream.bounded
      rw [← hstream.size] at hbounded
      exact ⟨hstream.stream, Nat.add_sub_cancel' hbounded⟩
  · rcases htracked k.ring with ⟨-, -, habsent⟩ | ⟨c, capacity, hfed⟩
    · exact absurd rfl (habsent.sinks x k hx)
    · obtain ⟨ring, hring, hstream⟩ := hfed.ring
      obtain ⟨hchannels, hdropped⟩ := hfed.sinks x k hx rfl
      refine ⟨ring, hring, hfed.sole x k hx rfl, hchannels ▸ hstream.channels, hdropped, ?_⟩
      rw [answer_sink hx, room, hring]
      rfl
  · simp only [mem_offered, (hsound g hg).renders?_iff]
    constructor
    · rintro ⟨x, n, n', k, ⟨g', root, hpull, hup, hroot, hleads, hn, hflag, hn'⟩, hk, hr, hinputs,
        ho⟩
      exact ⟨g', root, x, n, n', k, hpull, hup, hroot, hleads, hn, hk, hr, hflag, hn', hinputs, ho⟩
    · rintro ⟨g', root, x, n, n', k, hpull, hup, hroot, hleads, hn, hk, hr, hflag, hn', hinputs, ho⟩
      exact ⟨x, n, n', k, ⟨g', root, hpull, hup, hroot, hleads, hn, hflag, hn'⟩, hk, hr, hinputs,
        ho⟩
  · rw [Offer.fits, decide_eq_false_iff_not, Nat.not_le]
  · exact RingSink.length_frames o.channels o.inputs
  · exact fun i c hi hc => RingSink.getElem?_frames o.inputs hi hc
  · intro made r hmade
    have hends := hsound _ (start.course_afterSteps steps)
    have habsent : Absent r s.graph := by
      rcases htracked r with ⟨-, -, habsent⟩ | ⟨c, capacity, hfed⟩
      · exact habsent
      · exact absurd hfed.lt (Nat.lt_irrefl _)
    obtain ⟨hlabel, hx, hfed⟩ := fed_create_sink hends habsent hmade
    refine ⟨hlabel, hx, fun hpopped => ?_⟩
    have hmadeSound : made.graph.Sound := by
      change (s.step _).2.graph.Sound
      rw [graph_step]
      exact hends.replay _
    have hlast := tracked_steps (I := Fed r _ _) Fed.step hfed hmadeSound more
    rw [hpopped] at hlast
    exact queued_of_undrained hlast

/-- How many blocks a sink dropped. -/
def Graph.dropped? (g : Graph) (x : NodeId) : Option Nat :=
  (g.node x).toOption.bind fun n => n.kind.asRingSink.toOption.map (·.dropped)

theorem Graph.exists_feeds {count : Nat} (h : g.dropped? x = some count) :
    ∃ s, g.Feeds x s ∧ s.dropped = count := by
  obtain ⟨n, hn, h⟩ := Option.bind_eq_some_iff.mp h
  obtain ⟨s, hs, hdropped⟩ := Option.map_eq_some_iff.mp h
  refine ⟨s, ⟨n, eq_ok_of_toOption hn, ?_⟩, hdropped⟩
  cases hk : n.kind with
  | ringSink s' => rw [hk] at hs; cases hs; rfl
  | _ => rw [hk] at hs; cases hs

/-- A sink for two blocks of two channels, one of which is played into, and a consumer that takes
some samples after three blocks and the rest after four. -/
def slowConsumer : List Step :=
  [.create "player" (.samplePlayer #[1, 2, 3]),
    .command (.associate "sink" (.ringSink 256 2) (.sink 1)),
    .command (.connect "player" 0 "sink" 0), .process "sink" 3,
    .drain "sink" (some 100) ⟨none, none⟩, .process "sink" 1, .drain "sink" none ⟨none, none⟩,
    .process "sink" 1]

/-- All that was offered to its ring. -/
def slowlyConsumed : List Offer :=
  offers 0 (Session.new 44100 64).graph ((Session.new 44100 64).tale slowConsumer).happenings

/-- A sink for two blocks. -/
def sinkForTwo : Session := ((Session.new 44100 64).step (.create "sink" (.ringSink 1 2))).2

/-- Three blocks of it. -/
def threeBlocks : List Step :=
  [.create "player" (.samplePlayer #[1, 2, 3]), .command (.connect "player" 0 "sink" 0),
    .process "sink" 3]

/-- What was offered, how much was taken out and is left, and how much was dropped. -/
theorem view_slowConsumer :
    slowlyConsumed.map (fun o => (o.free, o.fits))
      = [(256, true), (128, true), (0, false), (100, false), (256, true)] ∧
    ((Session.new 44100 64).popped 0 slowConsumer).length = 256 ∧
    ((Session.new 44100 64).afterSteps slowConsumer).graph.rings[0]?.map (·.queued.length)
      = some 128 ∧
    ((Session.new 44100 64).afterSteps slowConsumer).graph.dropped? ⟨1, 0⟩ = some 2 ∧
    (offers 0 sinkForTwo.graph (sinkForTwo.tale threeBlocks).happenings).length = 3 ∧
    (sinkForTwo.popped 0 threeBlocks).length = 0 := by
  decide +kernel

theorem made_sinkForTwo :
    ((Session.new 44100 64).step (.create "sink" (.ringSink 1 2))).1 = .answer (.node ⟨0, 0⟩) := rfl

/-- The third and the fourth block are dropped whole, although 100 samples fit by then. -/
theorem delivery_slowConsumer :
    slowlyConsumed.map (fun o => (o.free, o.fits))
      = [(256, true), (128, true), (0, false), (100, false), (256, true)] ∧
    (∃ ring, ((Session.new 44100 64).afterSteps slowConsumer).graph.rings[0]? = some ring ∧
      ring.queued.length = 128 ∧ ((Session.new 44100 64).popped 0 slowConsumer).length = 256 ∧
      (Session.new 44100 64).popped 0 slowConsumer ++ ring.queued
        = (slowlyConsumed.filter (·.fits)).flatMap Offer.frames) ∧
    (∃ k, ((Session.new 44100 64).afterSteps slowConsumer).graph.Feeds ⟨1, 0⟩ k ∧ k.dropped = 2) ∧
    ∃ ring, (sinkForTwo.afterSteps threeBlocks).graph.rings[0]? = some ring ∧
      (offers 0 sinkForTwo.graph (sinkForTwo.tale threeBlocks).happenings).length = 3 ∧
      ring.queued = ((offers 0 sinkForTwo.graph (sinkForTwo.tale threeBlocks).happenings).take
        2).flatMap Offer.frames := by
  obtain ⟨hstream, -⟩ := delivery 44100 64 slowConsumer
  obtain ⟨-, -, -, -, -, hcreated⟩ := delivery 44100 64 []
  obtain ⟨hpast, hpopped, hring, hdropped, hoffered, hnone⟩ := view_slowConsumer
  obtain ⟨ring, hring, hqueued⟩ := Option.map_eq_some_iff.mp hring
  have hstart : (Session.new 44100 64).afterSteps [] = Session.new 44100 64 := rfl
  have hmade : ((Session.new 44100 64).step (.create "sink" (.ringSink 1 2))).2 = sinkForTwo := rfl
  have hnumber : (Session.new 44100 64).graph.rings.length = 0 := rfl
  rw [hstart, hnumber] at hcreated
  have hsink := hcreated "sink" 1 2 ⟨0, 0⟩ threeBlocks
  rw [hmade] at hsink
  obtain ⟨-, -, hundrained⟩ := hsink made_sinkForTwo
  obtain ⟨ring', hring', hqueued'⟩ := hundrained (List.length_eq_zero_iff.mp hnone)
  exact ⟨hpast, ⟨ring, hring, hqueued, hpopped, (hstream 0 ring hring).1⟩,
    Graph.exists_feeds hdropped, ring', hring', hoffered, hqueued'⟩

end SpatialAudio
