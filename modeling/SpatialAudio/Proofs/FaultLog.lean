import SpatialAudio.Proofs.Conduct

/-!
# Proofs/FaultLog — the faults of a session, taken or still queued

Every block that is given up has a fault (`Abandonment`), numbered by the blocks begun before it
(`abandonments`).  It is logged unless the queue is full.  What was taken out of the queue so far,
followed by what is still in it, is the list of all faults that found room (`Logged`): logging
appends to it, taking moves the border between the two parts, and nothing else touches either.
-/

namespace SpatialAudio

open SpatialAudio.Graph

/-! ## Blocks and their faults -/

/-- How many blocks a happening begins. -/
def Happening.begins (g : Graph) : Happening → Nat
  | deed (.pull id) => if (g.pull id).isOk then 1 else 0
  | _ => 0

/-- How many blocks happenings begin. -/
def begunBlocks : Graph → List Happening → Nat
  | _, [] => 0
  | g, k :: ks => k.begins g + begunBlocks (k.after g) ks

/-- A block that was given up. -/
structure Abandonment where
  fault : Fault
  /-- How many faults were queued then. -/
  queued : Nat

/-- The fault of a happening, if it is a block that is given up, with `block` blocks before it. -/
def Happening.abandonment? (block : Nat) (g : Graph) : Happening → Option Abandonment
  | deed (.pull id) =>
    (g.givesUp? id).map fun (node, error) => ⟨⟨block, node, error⟩, g.faults.length⟩
  | _ => none

/-- All blocks that were given up, with `block` blocks before the first happening. -/
def abandonments : (block : Nat) → Graph → List Happening → List Abandonment
  | _, _, [] => []
  | block, g, k :: ks =>
    (k.abandonment? block g).toList ++ abandonments (block + k.begins g) (k.after g) ks

/-- The faults that a step hands out. -/
def Step.faults (step : Step) (s : Session) : List Fault :=
  match step, (s.step step).1 with
  | .takeFaults, .faults faults => faults
  | _, _ => []

/-- The faults that steps hand out. -/
def Session.taken (s : Session) : List Step → List Fault
  | [] => []
  | step :: rest => step.faults s ++ (s.step step).2.taken rest

theorem begunBlocks_append (g : Graph) (hs ks : List Happening) :
    begunBlocks g (hs ++ ks) = begunBlocks g hs + begunBlocks (replay g hs) ks := by
  induction hs generalizing g with
  | nil => exact (Nat.zero_add _).symm
  | cons k hs ih =>
    rw [List.cons_append, begunBlocks, begunBlocks, ih, Nat.add_assoc]
    rfl

theorem abandonments_append (block : Nat) (g : Graph) (hs ks : List Happening) :
    abandonments block g (hs ++ ks)
      = abandonments block g hs ++ abandonments (block + begunBlocks g hs) (replay g hs) ks := by
  induction hs generalizing block g with
  | nil => rfl
  | cons k hs ih =>
    rw [List.cons_append, abandonments, abandonments, ih, List.append_assoc, begunBlocks,
      Nat.add_assoc]
    rfl

/-! ## The log -/

/-- `taken` were taken out of the log of `g`, and `past` are all blocks that were given up. -/
structure Logged (capacity : Nat) (taken : List Fault) (past : List Abandonment) (g : Graph) :
    Prop where
  size : g.faultCapacity = capacity
  bounded : g.faults.length ≤ capacity
  log : taken ++ g.faults = (past.filter (·.queued < capacity)).map (·.fault)
  before : ∀ a ∈ past, a.fault.block < g.blocks
  increasing : past.Pairwise fun a b => a.fault.block < b.fault.block

/-- The happening takes all faults out. -/
def Happening.clears : Happening → Bool
  | deed .clearFaults => true
  | _ => false

section Logged

variable {capacity : Nat} {taken : List Fault} {past : List Abandonment} {g g' : Graph}

theorem Logged.congr (h : Logged capacity taken past g) (hblocks : g'.blocks = g.blocks)
    (hfaults : g'.faults = g.faults) (hcapacity : g'.faultCapacity = g.faultCapacity) :
    Logged capacity taken past g' := by
  refine ⟨hcapacity.trans h.size, ?_, ?_, ?_, h.increasing⟩
  · rw [hfaults]
    exact h.bounded
  · rw [hfaults]
    exact h.log
  · rw [hblocks]
    exact h.before

/-- A block that is given up is the latest, and is logged if there is room. -/
theorem Logged.abandoned (h : Logged capacity taken past g) {node : NodeId} {error : Error}
    (hbooks : g'.books = g.books.abandoned node error) :
    Logged capacity taken (past ++ [⟨⟨g.blocks, node, error⟩, g.faults.length⟩]) g' := by
  have hblocks : g'.blocks = g.blocks + 1 := congrArg Books.blocks hbooks
  have hfaults : g'.faults = if g.faults.length < g.faultCapacity
      then g.faults ++ [⟨g.blocks, node, error⟩] else g.faults := congrArg Books.faults hbooks
  have hcapacity : g'.faultCapacity = g.faultCapacity := congrArg Books.faultCapacity hbooks
  rw [h.size] at hfaults
  refine ⟨hcapacity.trans h.size, ?_, ?_, fun a ha => ?_, ?_⟩
  · have hbounded := h.bounded
    rw [hfaults]
    split
    · rw [List.length_append]
      exact ‹g.faults.length < capacity›
    · exact hbounded
  · rw [List.filter_append, List.map_append, ← h.log, List.append_assoc, hfaults]
    congr 1
    split
    · next hroom => simp only [List.filter_cons, hroom, decide_true, if_true]; rfl
    · next hfull => simp [hfull]
  · rw [hblocks]
    rcases List.mem_append.mp ha with ha | ha
    · exact Nat.lt_succ_of_lt (h.before a ha)
    · rw [List.mem_singleton.mp ha]
      exact Nat.lt_succ_self _
  · rw [List.pairwise_append]
    refine ⟨h.increasing, List.pairwise_singleton _ _, fun a ha b hb => ?_⟩
    rw [List.mem_singleton.mp hb]
    exact h.before a ha

/-- A block that is played, or refused, is not logged. -/
theorem Logged.pulled (h : Logged capacity taken past g) (id : NodeId) :
    Logged capacity taken (past ++ ((Happening.deed (.pull id)).abandonment? g.blocks g).toList)
        ((Deed.pull id).after g) ∧
      ((Deed.pull id).after g).blocks = g.blocks + (Happening.deed (.pull id)).begins g := by
  have hbooks := books_deed_pull id g
  rw [Happening.abandonment?, Happening.begins]
  cases hpull : g.pull id with
  | error e =>
    have hnone : g.givesUp? id = none := by
      cases hup : g.givesUp? id with
      | none => rfl
      | some refusal =>
        obtain ⟨g', hg'⟩ := pull_of_givesUp hup
        cases hpull.symm.trans hg'
    rw [hpull, hnone] at hbooks
    rw [hnone, Option.map_none, Option.toList_none, List.append_nil]
    exact ⟨h.congr (congrArg Books.blocks hbooks) (congrArg Books.faults hbooks)
      (congrArg Books.faultCapacity hbooks), congrArg Books.blocks hbooks⟩
  | ok g' =>
    rw [hpull] at hbooks
    cases hup : g.givesUp? id with
    | some refusal =>
      rw [hup] at hbooks
      exact ⟨h.abandoned hbooks, congrArg Books.blocks hbooks⟩
    | none =>
      rw [hup] at hbooks
      have hblocks : ((Deed.pull id).after g).blocks = g.blocks + 1 := congrArg Books.blocks hbooks
      have hfaults : ((Deed.pull id).after g).faults = g.faults := congrArg Books.faults hbooks
      have hcapacity : ((Deed.pull id).after g).faultCapacity = g.faultCapacity :=
        congrArg Books.faultCapacity hbooks
      rw [Option.map_none, Option.toList_none, List.append_nil]
      refine ⟨⟨hcapacity.trans h.size, hfaults ▸ h.bounded, hfaults ▸ h.log, fun a ha => ?_,
        h.increasing⟩, hblocks⟩
      rw [hblocks]
      exact Nat.lt_succ_of_lt (h.before a ha)

/-- **What a happening does to the log**, unless it takes the faults out. -/
theorem Logged.happening (h : Logged capacity taken past g) {k : Happening}
    (hk : k.clears = false) :
    Logged capacity taken (past ++ (k.abandonment? g.blocks g).toList) (k.after g) ∧
      (k.after g).blocks = g.blocks + k.begins g := by
  cases hwrites : k.writes with
  | true =>
    match k, hwrites with
    | .deed (.pull id), _ => exact h.pulled id
    | .deed (.addRing capacity'), _ =>
      rw [show (Happening.deed (.addRing capacity')).after g
        = ((Graph.addRing capacity').run g).2 from rfl, run_addRing]
      split <;> exact ⟨(List.append_nil past).symm ▸ h.congr rfl rfl rfl, rfl⟩
    | .deed .clearFaults, _ => cases hk
    | .deed (.refill number ring), _ =>
      exact ⟨(List.append_nil past).symm ▸ h.congr rfl rfl rfl, rfl⟩
  | false =>
    have hbooks := k.books hwrites g
    have hquiet : k.abandonment? g.blocks g = none ∧ k.begins g = 0 := by
      cases k with
      | deed d => cases d with
        | pull id => cases hwrites
        | _ => exact ⟨rfl, rfl⟩
      | _ => exact ⟨rfl, rfl⟩
    rw [hquiet.1, hquiet.2, Option.toList_none, List.append_nil]
    exact ⟨h.congr (congrArg Books.blocks hbooks) (congrArg Books.faults hbooks)
      (congrArg Books.faultCapacity hbooks), congrArg Books.blocks hbooks⟩

theorem Logged.replay (h : Logged capacity taken past g) {hs : List Happening}
    (hclears : ∀ k ∈ hs, k.clears = false) :
    Logged capacity taken (past ++ abandonments g.blocks g hs) (replay g hs) ∧
      (SpatialAudio.replay g hs).blocks = g.blocks + begunBlocks g hs := by
  induction hs generalizing past g with
  | nil => exact ⟨(List.append_nil past).symm ▸ h, rfl⟩
  | cons k hs ih =>
    obtain ⟨hk, hclears⟩ := List.forall_mem_cons.mp hclears
    obtain ⟨hfirst, hblocks⟩ := h.happening hk
    obtain ⟨hrest, hblocks'⟩ := ih hfirst hclears
    rw [abandonments, begunBlocks, ← List.append_assoc, ← Nat.add_assoc, ← hblocks]
    exact ⟨hrest, hblocks'⟩

/-- Taking all faults out moves them from the queue to what was taken. -/
theorem Logged.cleared (h : Logged capacity taken past g) :
    Logged capacity (taken ++ g.faults) past { g with faults := [] } :=
  ⟨h.size, Nat.zero_le _, by rw [List.append_nil]; exact h.log, h.before, h.increasing⟩

end Logged

/-! ## Runs -/

theorem Orderly.clears {g : Graph} {hs : List Happening} (h : Orderly g hs) :
    ∀ k ∈ hs, k.clears = false := by
  have hplain : ∀ {k : Happening}, k.plain = true → k.clears = false := by
    intro k hk
    cases k with
    | deed d => cases d with
      | clearFaults => cases hk
      | _ => rfl
    | _ => rfl
  induction h with
  | nil => exact fun _ hk => absurd hk List.not_mem_nil
  | plain hk _ ih => exact List.forall_mem_cons.mpr ⟨hplain hk, ih⟩
  | sink _ _ ih => exact List.forall_mem_cons.mpr ⟨rfl, List.forall_mem_cons.mpr ⟨rfl, ih⟩⟩

/-- Only the step that takes faults does so. -/
theorem Step.clears {step : Step} (hstep : step ≠ .takeFaults) (s : Session) :
    ∀ k ∈ (step.tale s).happenings, k.clears = false := by
  cases htakes : step.takesOut with
  | false => exact (Step.orderly htakes s).clears
  | true =>
    match step, htakes with
    | .takeFaults, _ => exact absurd rfl hstep
    | .drain label limit probe, _ =>
      rw [tale_drain]
      split
      · exact List.forall_mem_singleton.mpr rfl
      · exact fun _ hk => absurd hk List.not_mem_nil

/-- **What a step does to the log.** -/
theorem Logged.step {capacity : Nat} {taken : List Fault} {past : List Abandonment} {s : Session}
    (h : Logged capacity taken past s.graph) (step : Step) :
    Logged capacity (taken ++ step.faults s)
        (past ++ abandonments s.graph.blocks s.graph (step.tale s).happenings)
        (s.step step).2.graph ∧
      (s.step step).2.graph.blocks
        = s.graph.blocks + begunBlocks s.graph (step.tale s).happenings := by
  by_cases hstep : step = .takeFaults
  · subst hstep
    exact ⟨(List.append_nil past).symm ▸ h.cleared, rfl⟩
  · have hnone : step.faults s = [] := by
      cases step with
      | takeFaults => exact absurd rfl hstep
      | _ => rfl
    rw [graph_step, hnone, List.append_nil]
    exact h.replay (Step.clears hstep s)

theorem Logged.steps {capacity : Nat} {taken : List Fault} {past : List Abandonment} {s : Session}
    (h : Logged capacity taken past s.graph) (steps : List Step) :
    Logged capacity (taken ++ s.taken steps)
        (past ++ abandonments s.graph.blocks s.graph (s.tale steps).happenings)
        (s.afterSteps steps).graph ∧
      (s.afterSteps steps).graph.blocks
        = s.graph.blocks + begunBlocks s.graph (s.tale steps).happenings := by
  induction steps generalizing taken past s with
  | nil =>
    refine ⟨?_, rfl⟩
    rw [Session.taken, Session.tale, Tale.happenings_empty, abandonments, List.append_nil,
      List.append_nil]
    exact h
  | cons step rest ih =>
    obtain ⟨hfirst, hblocks⟩ := h.step step
    obtain ⟨hrest, hblocks'⟩ := ih hfirst
    rw [Session.taken, Session.tale, Tale.happenings_append, abandonments_append,
      begunBlocks_append, ← List.append_assoc, ← List.append_assoc, ← Nat.add_assoc, ← hblocks,
      ← graph_step]
    exact ⟨hrest, hblocks'⟩

/-- **The log of faults is an honest bounded queue.**  The faults taken so far, followed by those
still queued, are those of all blocks that were given up while there was room, in order and each
with the number of blocks begun before it.  A block for a handle that is no longer good is refused
and leaves no trace; any other is begun, unless it aborts. -/
theorem fault_log (rate capacity : Nat) (steps : List Step) :
    let s := Session.new rate capacity
    let g := (s.afterSteps steps).graph
    let past := abandonments 0 s.graph (s.tale steps).happenings
    s.taken steps ++ g.faults = (past.filter (·.queued < max capacity 1)).map (·.fault) ∧
    g.faults.length ≤ max capacity 1 ∧
    (past.map (·.fault.block)).Pairwise (· < ·) ∧
    ((s.taken steps ++ g.faults).map (·.block)).Pairwise (· < ·) ∧
    g.blocks = begunBlocks s.graph (s.tale steps).happenings ∧
    ∀ g', s.Course steps g' → ∀ id,
      (g'.node id = .error (.staleNode id) →
        g'.pull id = .error (.refused (.staleNode id)) ∧ (Deed.pull id).after g' = g' ∧
        (Happening.deed (.pull id)).begins g' = 0 ∧ g'.givesUp? id = none) ∧
      ∀ n, g'.node id = .ok n →
        ((Happening.deed (.pull id)).begins g' = 1 ∧
          ((Deed.pull id).after g').blocks = g'.blocks + 1) ∨
        ∃ a, g'.pull id = .error (.aborted a) := by
  intro s g past
  have hstart : Logged (max capacity 1) [] [] s.graph :=
    ⟨rfl, Nat.zero_le _, rfl, fun _ ha => absurd ha List.not_mem_nil, .nil⟩
  obtain ⟨hlogged, hblocks⟩ := hstart.steps steps
  have hincreasing : (past.map (·.fault.block)).Pairwise (· < ·) :=
    List.pairwise_map.mpr hlogged.increasing
  refine ⟨hlogged.log, hlogged.bounded, hincreasing, ?_, hblocks.trans (Nat.zero_add _),
    fun g' hcourse id => ⟨fun hstale => ?_, fun n hn => ?_⟩⟩
  · have hlog : s.taken steps ++ g.faults = _ := hlogged.log
    rw [hlog, List.map_map]
    exact hincreasing.sublist (List.filter_sublist.map _)
  · have hpull := pull_of_stale hstale
    refine ⟨hpull, ?_, ?_, ?_⟩
    · rw [Deed.after, Deed.run, run_update, hpull]
    · rw [Happening.begins, hpull]
      rfl
    · cases hup : g'.givesUp? id with
      | none => rfl
      | some refusal =>
        obtain ⟨_, hok⟩ := pull_of_givesUp hup
        cases hpull.symm.trans hok
  · cases hpull : g'.pull id with
    | error e =>
      obtain ⟨a, rfl⟩ := (hcourse.reachable (.new rate capacity)).sound.pull_error hn hpull
      exact .inr ⟨a, rfl⟩
    | ok g'' =>
      refine .inl ⟨?_, ?_⟩
      · rw [Happening.begins, hpull]
        rfl
      · rw [Deed.after, Deed.run, run_update, hpull]
        exact blocks_pull hpull

/-- The map of a panner outgrows its connection, so that every block is given up. -/
def outgrown : List Step :=
  [.create "p" .amplitudePanner, .create "g" (.gain 2), .command (.connect "p" 0 "g" 0),
    .command (.set "p" .channelMap (.floatArray [0, 90, 180, 270])), .process "g" 2, .takeFaults,
    .process "g" 1]

/-- Which blocks have a fault that was taken or is queued, and which were given up, with how many
faults queued. -/
theorem view_outgrown :
    ((Session.new 44100 1).taken outgrown).map (·.block) = [0] ∧
    ((Session.new 44100 1).afterSteps outgrown).graph.faults.map (·.block) = [2] ∧
    (abandonments 0 (Session.new 44100 1).graph
      ((Session.new 44100 1).tale outgrown).happenings).map (fun a => (a.fault.block, a.queued))
        = [(0, 0), (1, 1), (2, 0)] := by
  decide +kernel

/-- With room for one fault the second of three is lost, and the third has its own number. -/
theorem fault_log_outgrown :
    ((Session.new 44100 1).taken outgrown).map (·.block) = [0] ∧
    ((Session.new 44100 1).afterSteps outgrown).graph.faults.map (·.block) = [2] ∧
    (Session.new 44100 1).taken outgrown ++ ((Session.new 44100 1).afterSteps outgrown).graph.faults
      = ((abandonments 0 (Session.new 44100 1).graph
          ((Session.new 44100 1).tale outgrown).happenings).filter (·.queued < max 1 1)).map
            (·.fault) :=
  ⟨view_outgrown.1, view_outgrown.2.1, (fault_log 44100 1 outgrown).1⟩

end SpatialAudio
