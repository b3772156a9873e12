import Mathlib
import SpatialAudio.Proofs.Conduct
import SpatialAudio.Proofs.Paths

/-!
# Proofs/Loading — every source is decoded at its first successful load

The loads of a session are a history (`Session.loads`), each with the files there were and with what
came of it: the number of a dataset, which stands for the one shared object, and the dataset.  The
library answers from this history: it gives what the first successful load of a source gave
(`recalled`), or else decodes the source as it is now (`Kept.obtain`).  All that is said about loads
is read off that history (`WriteOnce`).  No other step touches the library, and a dataset given by
its content is found by no later load, so leaving its load out changes no other (`content_loads`).
-/

namespace SpatialAudio

/-! ## Sources -/

/-- Loads of the two sources share one dataset: both are built in, or files with equal paths. -/
def DatasetSource.shares : DatasetSource → DatasetSource → Bool
  | .builtin, .builtin => true
  | .file p, .file q => p.Equal q
  | _, _ => false

namespace DatasetSource

variable {x y z : DatasetSource}

theorem shares_file {p q : DatasetPath} : (file p).shares (file q) = true ↔ p.Equal q :=
  decide_eq_true_iff

theorem shares_symm (h : x.shares y = true) : y.shares x = true := by
  cases x with
  | builtin => cases y <;> exact h
  | buffer _ => cases h
  | file p =>
    cases y with
    | file q => exact shares_file.mpr (shares_file.mp h).symm
    | builtin | buffer _ => cases h

theorem shares_trans (h : x.shares y = true) (h' : y.shares z = true) : x.shares z = true := by
  cases y with
  | builtin => cases x <;> first | exact h' | cases h
  | buffer _ => cases h'
  | file q =>
    cases x with
    | builtin | buffer _ => cases h
    | file p =>
      cases z with
      | builtin | buffer _ => cases h'
      | file r => exact shares_file.mpr ((shares_file.mp h).trans (shares_file.mp h'))

/-- Sources that share are shared with alike. -/
theorem shares_congr (h : x.shares y = true) (z : DatasetSource) : z.shares x = z.shares y :=
  Bool.eq_iff_iff.mpr ⟨fun hz => shares_trans hz h, fun hz => shares_trans hz (shares_symm h)⟩

/-- A source as it is now, at a sample rate. -/
def decode (source : DatasetSource) (f : Files) (rate : Nat) : Except Failure Dataset := do
  Dataset.load (← Library.fetch f source) rate

theorem decode_file (path : DatasetPath) (f : Files) (rate : Nat) :
    (file path).decode f rate = match f.read? path with
      | some bytes => Dataset.load bytes rate
      | none => .error (.refused (.dataset (.unreadable path))) := by
  rw [decode, Library.fetch]
  cases f.read? path <;> rfl

end DatasetSource

/-! ## The history of loads -/

/-- A load. -/
structure Load where
  source : DatasetSource
  /-- The files that there were. -/
  files : Files
  /-- The number that was given out, and its dataset. -/
  outcome : Except Failure (Nat × Dataset)

namespace Load

/-- What a load holds for later loads of a source. -/
def serves (a : Load) (source : DatasetSource) : Option (Nat × Dataset) :=
  if a.source.shares source then a.outcome.toOption else none

/-- A load but for the number. -/
def content (a : Load) : DatasetSource × Files × Except Failure Dataset :=
  (a.source, a.files, a.outcome.map (·.2))

variable {a : Load} {source : DatasetSource} {held : Nat × Dataset}

theorem serves_eq_some :
    a.serves source = some held ↔ a.source.shares source = true ∧ a.outcome = .ok held := by
  rw [serves]
  split
  · next h =>
    cases a.outcome with
    | ok x => exact ⟨fun hx => ⟨h, congrArg Except.ok (Option.some.inj hx)⟩,
        fun hx => congrArg some (Except.ok.inj hx.2)⟩
    | error e => exact ⟨nofun, nofun⟩
  · next h => exact ⟨nofun, fun hx => absurd hx.1 h⟩

theorem serves_congr {other : DatasetSource} (h : source.shares other = true) (a : Load) :
    a.serves source = a.serves other := by
  rw [serves, serves, DatasetSource.shares_congr h]

end Load

/-- What the first successful load of a source gave. -/
def recalled (past : List Load) (source : DatasetSource) : Option (Nat × Dataset) :=
  past.findSome? (·.serves source)

section Recall

variable {past : List Load} {source : DatasetSource}

theorem recalled_append (past : List Load) (a : Load) (source : DatasetSource) :
    recalled (past ++ [a]) source = (recalled past source).or (a.serves source) := by
  rw [recalled, List.findSome?_append]
  congr 1
  rw [List.findSome?_singleton]

theorem recalled_congr {other : DatasetSource} (h : source.shares other = true) (past : List Load) :
    recalled past source = recalled past other :=
  congrArg past.findSome? (funext fun a => a.serves_congr h)

theorem recalled_eq_none : recalled past source = none ↔ ∀ a ∈ past, a.serves source = none :=
  List.findSome?_eq_none_iff

/-- The first load that serves stands behind others that do not. -/
theorem exists_of_recalled {held : Nat × Dataset} (h : recalled past source = some held) :
    ∃ before a, before ++ [a] <+: past ∧ a.serves source = some held ∧
      ∀ b ∈ before, b.serves source = none := by
  obtain ⟨before, a, after, rfl, ha, hbefore⟩ := List.findSome?_eq_some_iff.mp h
  exact ⟨before, a, ⟨after, by simp⟩, ha, hbefore⟩

theorem mem_of_opening {before : List Load} {a : Load} (h : before ++ [a] <+: past) : a ∈ past :=
  h.subset (List.mem_append_right _ List.mem_cons_self)

end Recall

/-- What a load gives out. -/
def Session.obtain (s : Session) (label : Label) (source : DatasetSource) :
    Except Failure (Nat × Dataset) := do
  let (number, library) ← s.library.load s.files s.graph.sampleRate source
  match library.datasets[number]? with
  | some d => return (number, d)
  | none => throw (.aborted (.unbound label))

/-- The load of a step, if it is one. -/
def Step.loads (s : Session) : Step → List Load
  | .load label source => [⟨source, s.files, s.obtain label source⟩]
  | _ => []

/-- The loads of some steps. -/
def Session.loads (s : Session) : List Step → List Load
  | [] => []
  | step :: rest => step.loads s ++ (s.step step).2.loads rest

theorem Session.loads_append (s : Session) (steps more : List Step) :
    s.loads (steps ++ more) = s.loads steps ++ (s.afterSteps steps).loads more := by
  induction steps generalizing s with
  | nil => rfl
  | cons step rest ih => rw [List.cons_append, loads, loads, ih, List.append_assoc]; rfl

/-! ## Loading -/

/-- The labels of a dataset. -/
def Session.sameAs (s : Session) (number : Nat) : List Label :=
  (s.datasets.entries.filter fun e => e.2 = number).map (·.1)

/-- **A load gives out the same number again, or decodes and keeps**; if it fails nothing
changes. -/
theorem run_load (s : Session) (label : Label) (source : DatasetSource) :
    (Step.load label source).run.run s
      = match s.library.load s.files s.graph.sampleRate source with
        | .error e => (.error e, s)
        | .ok (number, library) =>
          ((s.obtain label source).map fun (n, d) =>
            Report.loaded d.sampleRate d.responseLength (s.sameAs n),
          { s with library, datasets := s.datasets.bind label number }) := by
  rw [Step.run, run_bind_ok (run_get s), run_bind, run_settle, Session.obtain]
  cases s.library.load s.files s.graph.sampleRate source with
  | error e => rfl
  | ok loaded =>
    obtain ⟨number, library⟩ := loaded
    let s' : Session := { s with library, datasets := s.datasets.bind label number }
    have hnamed : (Action.named Session.datasets label).run s' = (.ok number, s') :=
      run_named (s.datasets.get?_bind_self label number)
    change (Action.dataset label >>= fun d =>
      (pure (.loaded d.sampleRate d.responseLength (s.sameAs number)) : Action Report)).run s' = _
    rw [Action.dataset, bind_assoc, run_bind_ok hnamed, bind_assoc, run_bind_ok (run_get s')]
    change _ = (Except.map _ (match library.datasets[number]? with
      | some d => (.ok (number, d) : Except Failure (Nat × Dataset))
      | none => .error (.aborted (.unbound label))), s')
    change ((match library.datasets[number]? with
      | some d => pure d
      | none => throw (Failure.aborted (.unbound label)) : Action Dataset) >>= _).run s' = _
    cases library.datasets[number]? <;> rfl

theorem library_step_load (s : Session) (label : Label) (source : DatasetSource) :
    (s.step (.load label source)).2.library
      = match s.library.load s.files s.graph.sampleRate source with
        | .error _ => s.library
        | .ok (_, library) => library := by
  rw [Session.snd_step, run_load]
  split <;> rfl

/-- A source that is not found is decoded as it is now. -/
theorem Library.load_eq (l : Library) (f : Files) (rate : Nat) (source : DatasetSource) :
    l.load f rate source = match l.cached? source with
      | some number => .ok (number, l)
      | none => (source.decode f rate).map fun data =>
        (l.datasets.length, l.keep source data) := by
  rw [load, DatasetSource.decode]
  cases l.cached? source with
  | some number => rfl
  | none =>
    cases fetch f source with
    | error e => rfl
    | ok bytes =>
      change (Dataset.load bytes rate >>= fun data => _) = Except.map _ (Dataset.load bytes rate)
      cases Dataset.load bytes rate <;> rfl

/-- A dataset that is kept is found under its own source. -/
theorem Library.cached?_keep (l : Library) (source other : DatasetSource) (d : Dataset) :
    (l.keep source d).cached? other
      = if source.shares other then some l.datasets.length else l.cached? other := by
  cases source with
  | builtin => cases other <;> rfl
  | file p =>
    cases other with
    | file q =>
      rw [keep, cached?, DatasetSource.shares]
      by_cases hequal : p.Equal q
      · simp [hequal, DatasetPath.key_eq_iff.mpr hequal]
      · simp [hequal, mt DatasetPath.key_eq_iff.mp hequal, cached?]
    | builtin => rfl
    | buffer c => rfl
  | buffer c => cases other <;> rfl

theorem Library.datasets_keep (l : Library) (source : DatasetSource) (d : Dataset) :
    (l.keep source d).datasets = l.datasets ++ [d] := by
  cases source <;> rfl

/-- A library that answers from the history of its loads. -/
structure Kept (past : List Load) (l : Library) : Prop where
  cached : ∀ source, l.cached? source = (recalled past source).map (·.1)
  stored : ∀ a ∈ past, ∀ n d, a.outcome = .ok (n, d) → l.datasets[n]? = some d
  /-- All that serve a source serve alike. -/
  same : ∀ a ∈ past, ∀ source held, a.serves source = some held → recalled past source = some held
  /-- A number that is kept for a source was given out for nothing else. -/
  owner : ∀ a ∈ past, ∀ source n d, a.outcome = .ok (n, d) → l.cached? source = some n →
    a.source.shares source = true

theorem kept_empty : Kept [] .empty where
  cached source := by cases source <;> rfl
  stored _ ha := absurd ha List.not_mem_nil
  same _ ha := absurd ha List.not_mem_nil
  owner _ ha := absurd ha List.not_mem_nil

section Kept

variable {past : List Load} {s : Session}

/-- Numbers are given out in order. -/
theorem Kept.lt {l : Library} (h : Kept past l) {a : Load} (ha : a ∈ past) {n : Nat} {d : Dataset}
    (hn : a.outcome = .ok (n, d)) : n < l.datasets.length :=
  (List.getElem?_eq_some_iff.mp (h.stored a ha n d hn)).1

/-- **A load gives what the first successful load of its source gave, or decodes the source as it is
now, under a new number.** -/
theorem Kept.obtain (h : Kept past s.library) (label : Label) (source : DatasetSource) :
    s.obtain label source = match recalled past source with
      | some held => .ok held
      | none => (source.decode s.files s.graph.sampleRate).map fun d =>
        (s.library.datasets.length, d) := by
  rw [Session.obtain, Library.load_eq, h.cached source]
  cases hrecalled : recalled past source with
  | some held =>
    obtain ⟨before, a, hopening, hserves, -⟩ := exists_of_recalled hrecalled
    have hstored := h.stored a (mem_of_opening hopening) held.1 held.2
      (Load.serves_eq_some.mp hserves).2
    change (match s.library.datasets[held.1]? with
      | some d => (.ok (held.1, d) : Except Failure (Nat × Dataset))
      | none => .error (.aborted (.unbound label))) = _
    rw [hstored]
  | none =>
    simp only [Option.map_none]
    cases source.decode s.files s.graph.sampleRate with
    | error e => rfl
    | ok d =>
      have hlast : (s.library.keep source d).datasets[s.library.datasets.length]? = some d := by
        rw [Library.datasets_keep, List.getElem?_concat_length]
      change (match (s.library.keep source d).datasets[s.library.datasets.length]? with
        | some d => (.ok (s.library.datasets.length, d) : Except Failure (Nat × Dataset))
        | none => .error (.aborted (.unbound label))) = _
      rw [hlast]
      rfl

variable {l : Library} {source : DatasetSource} {held : Nat × Dataset}

/-- A load that is answered from the history adds nothing to it. -/
theorem Kept.again (h : Kept past l) (hrecalled : recalled past source = some held)
    (f : Files) : Kept (past ++ [⟨source, f, .ok held⟩]) l := by
  have hsame : ∀ other, recalled (past ++ [⟨source, f, .ok held⟩]) other = recalled past other := by
    intro other
    rw [recalled_append]
    cases hother : recalled past other with
    | some _ => rfl
    | none =>
      rw [Option.none_or, Load.serves]
      split
      · next hshares => cases hother.symm.trans ((recalled_congr hshares past).symm.trans hrecalled)
      · rfl
  obtain ⟨before, b, hopening, hserves, -⟩ := exists_of_recalled hrecalled
  obtain ⟨hshares, hok⟩ := Load.serves_eq_some.mp hserves
  have hb := mem_of_opening hopening
  refine ⟨fun other => ?_, ?_, ?_, ?_⟩
  · rw [hsame]
    exact h.cached other
  · refine List.forall_mem_append.mpr ⟨h.stored, List.forall_mem_singleton.mpr fun n d hn => ?_⟩
    cases hn
    exact h.stored b hb n d hok
  · simp only [hsame]
    refine List.forall_mem_append.mpr ⟨h.same, List.forall_mem_singleton.mpr fun other x hx => ?_⟩
    obtain ⟨hshares', hx⟩ := Load.serves_eq_some.mp hx
    cases hx
    exact (recalled_congr hshares' past).symm.trans hrecalled
  · refine List.forall_mem_append.mpr ⟨h.owner, List.forall_mem_singleton.mpr
      fun other n d hn hcached => ?_⟩
    cases hn
    exact DatasetSource.shares_trans (DatasetSource.shares_symm hshares)
      (h.owner b hb other n d hok hcached)

/-- A load that fails serves nobody. -/
theorem Kept.failed (h : Kept past l) (source : DatasetSource) (f : Files) (e : Failure) :
    Kept (past ++ [⟨source, f, .error e⟩]) l := by
  have hnobody : ∀ other, Load.serves ⟨source, f, .error e⟩ other = none := by
    intro other
    rw [Load.serves]
    split <;> rfl
  have hsame : ∀ other, recalled (past ++ [⟨source, f, .error e⟩]) other = recalled past other := by
    intro other
    rw [recalled_append, hnobody, Option.or_none]
  refine ⟨fun other => ?_, ?_, ?_, ?_⟩
  · rw [hsame]
    exact h.cached other
  · exact List.forall_mem_append.mpr ⟨h.stored, List.forall_mem_singleton.mpr nofun⟩
  · simp only [hsame]
    refine List.forall_mem_append.mpr ⟨h.same, List.forall_mem_singleton.mpr fun other x hx => ?_⟩
    rw [hnobody] at hx
    cases hx
  · exact List.forall_mem_append.mpr ⟨h.owner, List.forall_mem_singleton.mpr nofun⟩

/-- What is decoded is kept under a new number. -/
theorem Kept.fresh (h : Kept past l) (hrecalled : recalled past source = none) (f : Files)
    (data : Dataset) :
    Kept (past ++ [⟨source, f, .ok (l.datasets.length, data)⟩]) (l.keep source data) := by
  have hnew : ∀ other n, l.cached? other = some n → n < l.datasets.length := by
    intro other n hn
    rw [h.cached, Option.map_eq_some_iff] at hn
    obtain ⟨held, hheld, rfl⟩ := hn
    obtain ⟨before, b, hopening, hserves, -⟩ := exists_of_recalled hheld
    exact h.lt (mem_of_opening hopening) (Load.serves_eq_some.mp hserves).2
  have hserves : ∀ other, Load.serves ⟨source, f, .ok (l.datasets.length, data)⟩ other
      = if source.shares other then some (l.datasets.length, data) else none := fun _ => rfl
  have hnone : ∀ {other}, source.shares other = true → recalled past other = none :=
    fun hshares => (recalled_congr hshares past).symm.trans hrecalled
  refine ⟨fun other => ?_, ?_, ?_, ?_⟩
  · rw [Library.cached?_keep, recalled_append, hserves]
    split
    · next hshares => rw [hnone hshares]; rfl
    · rw [Option.or_none]
      exact h.cached other
  · rw [Library.datasets_keep]
    refine List.forall_mem_append.mpr ⟨fun a ha n x hn => ?_,
      List.forall_mem_singleton.mpr fun n x hn => ?_⟩
    · rw [List.getElem?_append_left (h.lt ha hn)]
      exact h.stored a ha n x hn
    · cases hn
      exact List.getElem?_concat_length
  · refine List.forall_mem_append.mpr ⟨fun a ha other x hx => ?_,
      List.forall_mem_singleton.mpr fun other x hx => ?_⟩
    · rw [recalled_append, h.same a ha other x hx]
      rfl
    · rw [recalled_append, hx, hnone (Load.serves_eq_some.mp hx).1]
      rfl
  · simp only [Library.cached?_keep]
    refine List.forall_mem_append.mpr ⟨fun a ha other n x hn hcached => ?_,
      List.forall_mem_singleton.mpr fun other n x hn hcached => ?_⟩
    · split at hcached
      · cases hcached
        exact absurd (h.lt ha hn) (Nat.lt_irrefl _)
      · exact h.owner a ha other n x hn hcached
    · cases hn
      split at hcached
      · next hshares => exact hshares
      · exact absurd (hnew other _ hcached) (Nat.lt_irrefl _)

/-- **A load is written into the history.** -/
theorem Kept.load (h : Kept past s.library) (label : Label) (source : DatasetSource) :
    Kept (past ++ [⟨source, s.files, s.obtain label source⟩])
      (s.step (.load label source)).2.library := by
  rw [library_step_load, Library.load_eq, h.cached source, h.obtain label source]
  cases hrecalled : recalled past source with
  | some held => exact h.again hrecalled _
  | none =>
    simp only [Option.map_none]
    cases source.decode s.files s.graph.sampleRate with
    | error e => exact h.failed source s.files e
    | ok d => exact h.fresh hrecalled s.files d

/-- A load that fails changes nothing. -/
theorem Kept.step_error (h : Kept past s.library) {label : Label} {e : Failure}
    (he : s.obtain label source = .error e) : (s.step (.load label source)).2 = s := by
  have hload : s.library.load s.files s.graph.sampleRate source = .error e := by
    rw [h.obtain] at he
    rw [Library.load_eq, h.cached source]
    cases hrecalled : recalled past source with
    | some held => rw [hrecalled] at he; cases he
    | none =>
      rw [hrecalled] at he
      cases hd : source.decode s.files s.graph.sampleRate with
      | error e' => rw [hd] at he; cases he; rfl
      | ok d => rw [hd] at he; cases he
  rw [Session.snd_step, run_load, hload]

/-- A load that succeeds names the dataset. -/
theorem step_load_ok {label : Label} {n : Nat} {d : Dataset}
    (hok : s.obtain label source = .ok (n, d)) :
    (s.step (.load label source)).1 = .loaded d.sampleRate d.responseLength (s.sameAs n) ∧
      (s.step (.load label source)).2.datasets.get? label = some n ∧
      (s.step (.load label source)).2.library.datasets[n]? = some d := by
  obtain ⟨⟨number, library⟩, hload, hd⟩ := bind_eq_ok.mp hok
  have hrun := run_load s label source
  rw [hload, hok] at hrun
  dsimp only at hd hrun
  split at hd
  · next hget =>
    cases hd
    rw [Session.step, hrun]
    exact ⟨rfl, s.datasets.get?_bind_self label n, hget⟩
  · cases hd

/-- Other steps leave the library alone. -/
theorem library_step {step : Step} (hstep : ∀ label source, step ≠ .load label source)
    (s : Session) : (s.step step).2.library = s.library := by
  cases hshelves : step.shelves with
  | false =>
    rw [Session.snd_step]
    exact congrArg Prod.fst (Step.aside hshelves s)
  | true =>
    match step, hshelves with
    | .writeFile path content, _ =>
      rw [Session.snd_step, Step.run, run_bind, run_settle]
      cases content.encoded <;> rfl
    | .load label source, _ => exact absurd rfl (hstep label source)

theorem Kept.step (h : Kept past s.library) (step : Step) :
    Kept (past ++ step.loads s) (s.step step).2.library := by
  by_cases hstep : ∃ label source, step = .load label source
  · obtain ⟨label, source, rfl⟩ := hstep
    exact h.load label source
  · have hother : ∀ label source, step ≠ .load label source :=
      fun label source heq => hstep ⟨label, source, heq⟩
    have hnone : step.loads s = [] := by
      cases step with
      | load label source => exact absurd rfl (hother label source)
      | _ => rfl
    rw [library_step hother, hnone, List.append_nil]
    exact h

theorem Kept.steps (h : Kept past s.library) (steps : List Step) :
    Kept (past ++ s.loads steps) (s.afterSteps steps).library := by
  induction steps generalizing past s with
  | nil =>
    rw [Session.loads, List.append_nil]
    exact h
  | cons step rest ih =>
    rw [Session.loads, ← List.append_assoc]
    exact ih (h.step step)

theorem sampleRate_step (s : Session) (step : Step) :
    (s.step step).2.graph.sampleRate = s.graph.sampleRate := by
  rw [graph_step]
  exact sampleRate_replay _ _

end Kept

/-! ## What loads have in common -/

/-- Loads through a cache that is written once. -/
structure WriteOnce (rate : Nat) (loads : List Load) : Prop where
  /-- Two successful loads give one number exactly if they share. -/
  shared : loads.Pairwise fun a b => ∀ m d n e, a.outcome = .ok (m, d) → b.outcome = .ok (n, e) →
    (m = n ↔ a.source.shares b.source = true)
  /-- A load that nothing earlier serves decodes its source as it is at that time. -/
  decided : ∀ before a, before ++ [a] <+: loads → (∀ b ∈ before, b.serves a.source = none) →
    a.outcome.map (·.2) = a.source.decode a.files rate
  /-- A file gives what its bytes were at the first successful load of an equal path. -/
  first : ∀ a ∈ loads, ∀ path n d, a.source = .file path → a.outcome = .ok (n, d) →
    ∃ before b q bytes, before ++ [b] <+: loads ∧ (∀ c ∈ before, c.serves a.source = none) ∧
      b.source = .file q ∧ q.Equal path ∧ b.outcome = .ok (n, d) ∧
      b.files.read? q = some bytes ∧ Dataset.load bytes rate = .ok d

section WriteOnce

variable {rate : Nat} {past : List Load}

/-- A load of a file that serves first was read from the file. -/
theorem exists_bytes_of_decode {b : Load} {path : DatasetPath} {n : Nat} {d : Dataset}
    (hshares : b.source.shares (.file path) = true) (hok : b.outcome = .ok (n, d))
    (hdecided : b.outcome.map (·.2) = b.source.decode b.files rate) :
    ∃ q bytes, b.source = .file q ∧ q.Equal path ∧ b.files.read? q = some bytes ∧
      Dataset.load bytes rate = .ok d := by
  cases hsource : b.source with
  | file q =>
    rw [hsource] at hshares hdecided
    rw [hok, DatasetSource.decode_file] at hdecided
    cases hread : b.files.read? q with
    | none =>
      rw [hread] at hdecided
      cases hdecided
    | some bytes =>
      rw [hread] at hdecided
      exact ⟨q, bytes, rfl, DatasetSource.shares_file.mp hshares, hread, hdecided.symm⟩
  | builtin | buffer => rw [hsource] at hshares; cases hshares

section Load

variable {s : Session} (hkept : Kept past s.library) (label : Label) (source : DatasetSource)

include hkept

/-- A load has the number of an earlier one exactly if they share. -/
theorem Kept.shared {b : Load} (hb : b ∈ past) {m n : Nat} {d e : Dataset}
    (hm : b.outcome = .ok (m, d)) (hn : s.obtain label source = .ok (n, e)) :
    m = n ↔ b.source.shares source = true := by
  have hobtain := hkept.obtain label source
  rw [hn] at hobtain
  cases hrecalled : recalled past source with
  | some held =>
    rw [hrecalled] at hobtain
    cases hobtain
    constructor
    · rintro rfl
      exact hkept.owner b hb source m d hm (by rw [hkept.cached, hrecalled]; rfl)
    · intro hshares
      have hheld := hkept.same b hb source (m, d) (Load.serves_eq_some.mpr ⟨hshares, hm⟩)
      cases hrecalled.symm.trans hheld
      rfl
  | none =>
    rw [hrecalled] at hobtain
    have hnew : n = s.library.datasets.length := by
      cases hd : source.decode s.files s.graph.sampleRate with
      | error e => rw [hd] at hobtain; cases hobtain
      | ok d => rw [hd] at hobtain; cases hobtain; rfl
    have hlt := hkept.lt hb hm
    refine ⟨fun heq => by omega, fun hshares => ?_⟩
    have hnone := recalled_eq_none.mp hrecalled b hb
    rw [Load.serves_eq_some.mpr ⟨hshares, hm⟩] at hnone
    cases hnone

/-- A load that nothing earlier serves decodes its source. -/
theorem Kept.decided (hnone : ∀ b ∈ past, b.serves source = none) :
    (s.obtain label source).map (·.2) = source.decode s.files s.graph.sampleRate := by
  rw [hkept.obtain label source, recalled_eq_none.mpr hnone]
  cases source.decode s.files s.graph.sampleRate <;> rfl

/-- **One more load.** -/
theorem WriteOnce.load (h : WriteOnce s.graph.sampleRate past) :
    WriteOnce s.graph.sampleRate (past ++ [⟨source, s.files, s.obtain label source⟩]) := by
  let last : Load := ⟨source, s.files, s.obtain label source⟩
  have hdecided : ∀ before a, before ++ [a] <+: past ++ [last] →
      (∀ b ∈ before, b.serves a.source = none) →
        a.outcome.map (·.2) = a.source.decode a.files s.graph.sampleRate := by
    intro before a hopening hbefore
    rcases List.prefix_concat_iff.mp hopening with heq | hopening
    · obtain ⟨rfl, ha⟩ := List.append_inj' heq rfl
      obtain rfl := List.singleton_inj.mp ha
      exact hkept.decided label source hbefore
    · exact h.decided before a hopening hbefore
  refine ⟨?_, hdecided, ?_⟩
  · refine List.pairwise_append.mpr ⟨h.shared, List.pairwise_singleton _ _, fun b hb => ?_⟩
    exact List.forall_mem_singleton.mpr fun m d n e hm hn => hkept.shared label source hb hm hn
  · refine List.forall_mem_append.mpr ⟨fun a ha path n d hpath hok => ?_,
      List.forall_mem_singleton.mpr fun path n d hpath hok => ?_⟩
    · obtain ⟨before, b, q, bytes, hopening, hfirst⟩ := h.first a ha path n d hpath hok
      exact ⟨before, b, q, bytes, hopening.trans (List.prefix_append _ _), hfirst⟩
    · -- the new load recalls the first one that serves it, which may be itself
      obtain rfl : source = .file path := hpath
      have hself : last.serves last.source = some (n, d) :=
        Load.serves_eq_some.mpr ⟨DatasetSource.shares_file.mpr (DatasetPath.Equal.refl path), hok⟩
      have hrecalled : recalled (past ++ [last]) last.source = some (n, d) :=
        (hkept.load label (.file path)).same last (List.mem_append_right _ List.mem_cons_self) _ _
          hself
      obtain ⟨before, b, hopening, hserves, hbefore⟩ := exists_of_recalled hrecalled
      obtain ⟨hshares, hb⟩ := Load.serves_eq_some.mp hserves
      obtain ⟨q, bytes, hq, hequal, hread, hload⟩ := exists_bytes_of_decode hshares hb
        (hdecided before b hopening fun c hc => (c.serves_congr hshares).trans (hbefore c hc))
      exact ⟨before, b, q, bytes, hopening, hbefore, hq, hequal, hb, hread, hload⟩

end Load

theorem WriteOnce.steps {s : Session} (h : WriteOnce s.graph.sampleRate past)
    (hkept : Kept past s.library) (steps : List Step) :
    WriteOnce s.graph.sampleRate (past ++ s.loads steps) := by
  induction steps generalizing past s with
  | nil =>
    rw [Session.loads, List.append_nil]
    exact h
  | cons step rest ih =>
    have hstep : WriteOnce s.graph.sampleRate (past ++ step.loads s) := by
      cases step with
      | load label source => exact h.load hkept label source
      | _ => exact (List.append_nil past).symm ▸ h
    rw [Session.loads, ← List.append_assoc, ← sampleRate_step s step]
    rw [← sampleRate_step s step] at hstep
    exact ih hstep (hkept.step step)

end WriteOnce

/-! ## Leaving a load out -/

theorem files_step_load (s : Session) (label : Label) (source : DatasetSource) :
    (s.step (.load label source)).2.files = s.files := by
  rw [Session.snd_step, run_load]
  split <;> rfl

/-- The files after a step depend on the files before it. -/
theorem files_step {s t : Session} (h : t.files = s.files) (step : Step) :
    (t.step step).2.files = (s.step step).2.files := by
  cases hshelves : step.shelves with
  | false =>
    rw [Session.snd_step, Session.snd_step]
    have hs : (step.run.run s).2.files = s.files :=
      congrArg Prod.snd (Step.aside hshelves s)
    have ht : (step.run.run t).2.files = t.files :=
      congrArg Prod.snd (Step.aside hshelves t)
    rw [hs, ht, h]
  | true =>
    match step, hshelves with
    | .writeFile path content, _ =>
      rw [Session.snd_step, Session.snd_step, Step.run, run_bind, run_settle, run_bind, run_settle]
      cases content.encoded with
      | ok bytes => exact congrArg (Files.write · path bytes) h
      | error e => exact h
    | .load label source, _ =>
      rw [files_step_load, files_step_load, h]

/-- Histories that hold the same datasets for all sources. -/
def Agree (past other : List Load) : Prop :=
  ∀ source, (recalled past source).map (·.2) = (recalled other source).map (·.2)

theorem Agree.append {past other : List Load} (h : Agree past other) {a b : Load}
    (hab : a.content = b.content) : Agree (past ++ [a]) (other ++ [b]) := by
  obtain ⟨hsource, hcontent⟩ := Prod.mk.inj hab
  have hserves : ∀ source, (a.serves source).map (·.2) = (b.serves source).map (·.2) := by
    intro source
    rw [Load.serves, Load.serves, hsource]
    have houtcome : a.outcome.map (·.2) = b.outcome.map (·.2) := (Prod.mk.inj hcontent).2
    split
    · cases ha : a.outcome with
      | error e =>
        cases hb : b.outcome with
        | error e' => rfl
        | ok y => rw [ha, hb] at houtcome; cases houtcome
      | ok x =>
        cases hb : b.outcome with
        | error e => rw [ha, hb] at houtcome; cases houtcome
        | ok y =>
          rw [ha, hb] at houtcome
          exact congrArg some (Except.ok.inj houtcome)
    · rfl
  intro source
  rw [recalled_append, recalled_append]
  have hpast := h source
  cases hr : recalled past source <;> cases ho : recalled other source <;> rw [hr, ho] at hpast
  · exact hserves source
  · cases hpast
  · cases hpast
  · exact hpast

section Agree

variable {s t : Session} {past other : List Load}

theorem content_load (hs : Kept past s.library) (ht : Kept other t.library)
    (hagree : Agree past other) (hfiles : t.files = s.files)
    (hrate : t.graph.sampleRate = s.graph.sampleRate) (label : Label) (source : DatasetSource) :
    Load.content ⟨source, s.files, s.obtain label source⟩
      = Load.content ⟨source, t.files, t.obtain label source⟩ := by
  have houtcome : (s.obtain label source).map (·.2) = (t.obtain label source).map (·.2) := by
    have hsource := hagree source
    rw [hs.obtain, ht.obtain, hfiles, hrate]
    cases hr : recalled past source with
    | some x =>
      cases ho : recalled other source with
      | some y =>
        rw [hr, ho] at hsource
        exact congrArg Except.ok (Option.some.inj hsource)
      | none => rw [hr, ho] at hsource; cases hsource
    | none =>
      cases ho : recalled other source with
      | some y => rw [hr, ho] at hsource; cases hsource
      | none => cases source.decode s.files s.graph.sampleRate <;> rfl
  rw [Load.content, Load.content, houtcome, hfiles]

/-- **The contents of loads** depend only on the files, the rate and the datasets held for
sources. -/
theorem content_loads (hs : Kept past s.library) (ht : Kept other t.library)
    (hagree : Agree past other) (hfiles : t.files = s.files)
    (hrate : t.graph.sampleRate = s.graph.sampleRate) (steps : List Step) :
    (s.loads steps).map Load.content = (t.loads steps).map Load.content := by
  induction steps generalizing s t past other with
  | nil => rfl
  | cons step rest ih =>
    have hfirst : (step.loads s).map Load.content = (step.loads t).map Load.content ∧
        Agree (past ++ step.loads s) (other ++ step.loads t) := by
      cases step with
      | load label source =>
        have hcontent := content_load hs ht hagree hfiles hrate label source
        exact ⟨congrArg (fun c => [c]) hcontent, hagree.append hcontent⟩
      | _ => exact ⟨rfl, by simpa only [Step.loads, List.append_nil] using hagree⟩
    have hrate' : (t.step step).2.graph.sampleRate = (s.step step).2.graph.sampleRate := by
      rw [sampleRate_step, sampleRate_step, hrate]
    rw [Session.loads, Session.loads, List.map_append, List.map_append, hfirst.1,
      ih (hs.step step) (ht.step step) hfirst.2 (files_step hfiles step) hrate']

end Agree

/-! ## Sessions -/

/-- **Datasets are loaded once for every source that is cached.** Whatever files are written and
whatever else is done in between: loads share as their sources do, a file is decoded from its bytes
at the first successful load of an equal path, and a load that nothing earlier serves from what is
there at that time; a load that fails changes nothing; a dataset given by its content is decoded
from it, under a number of its own, and a session without that load has all other loads alike. -/
theorem loads_once (rate capacity : Nat) (files : Files) (steps : List Step) :
    let start := { Session.new rate capacity with files }
    let s := start.afterSteps steps
    WriteOnce (max rate 1) (start.loads steps) ∧
    (∀ a ∈ start.loads steps, ∀ content, a.source = .buffer content →
      a.outcome.map (·.2) = do Dataset.load (← content.encoded) (max rate 1)) ∧
    (∀ label source e, s.obtain label source = .error e → (s.step (.load label source)).2 = s) ∧
    (∀ label source n d, s.obtain label source = .ok (n, d) →
      (s.step (.load label source)).1 = .loaded d.sampleRate d.responseLength (s.sameAs n) ∧
      (s.step (.load label source)).2.datasets.get? label = some n ∧
      (s.step (.load label source)).2.library.datasets[n]? = some d) ∧
    (∀ path content bytes q, content.encoded = .ok bytes →
      (s.step (.writeFile path content)).2.files.read? q =
        if path.Meets q then some bytes else s.files.read? q) ∧
    ∀ label content more, ∃ after without,
      start.loads (steps ++ .load label (.buffer content) :: more)
        = start.loads steps ++ ⟨.buffer content, s.files, s.obtain label (.buffer content)⟩
          :: after ∧
      start.loads (steps ++ more) = start.loads steps ++ without ∧
      after.map Load.content = without.map Load.content := by
  intro start s
  have hkept : Kept (start.loads steps) s.library := kept_empty.steps (s := start) steps
  have hnone : WriteOnce (max rate 1) [] :=
    ⟨.nil, fun before a hopening => by simp at hopening, fun _ ha => absurd ha List.not_mem_nil⟩
  have honce : WriteOnce (max rate 1) (start.loads steps) :=
    hnone.steps (s := start) kept_empty steps
  refine ⟨honce, fun a ha content hbuffer => ?_, fun label source e he => ?_,
    fun label source n d hok => ?_, fun path content bytes q hbytes => ?_,
    fun label content more => ?_⟩
  · obtain ⟨before, after, hsplit⟩ := List.append_of_mem ha
    have hdecided := honce.decided before a ⟨after, by rw [hsplit]; simp⟩ fun b _ => by
      rw [hbuffer, Load.serves]
      cases b.source <;> rfl
    rw [hbuffer] at hdecided
    exact hdecided
  · exact hkept.step_error he
  · exact step_load_ok hok
  · rw [Session.snd_step, Step.run, run_bind, run_settle, hbytes]
    exact s.files.read?_write path q bytes
  · refine ⟨(s.step (.load label (.buffer content))).2.loads more, s.loads more,
      start.loads_append steps _, start.loads_append steps more, ?_⟩
    have hnobody : ∀ a : Load, a.source = .buffer content → ∀ source, a.serves source = none := by
      intro a ha source
      rw [Load.serves, ha]
      cases source <;> rfl
    have hagree : Agree (start.loads steps
        ++ [⟨.buffer content, s.files, s.obtain label (.buffer content)⟩])
          (start.loads steps) := by
      intro source
      rw [recalled_append, hnobody _ rfl, Option.or_none]
    refine content_loads (hkept.load label (.buffer content)) hkept hagree ?_ ?_ more
    · exact (files_step_load s _ _).symm
    · exact (sampleRate_step s _).symm

/-- One response of one sample. -/
def impulse (sample : UInt32) : Dataset := ⟨8000, 0, 0, [1], 1, [sample]⟩

/-- A file is loaded before it is there, once it is there, and once it is another, by its path
written in two ways; then its content is given as such. -/
def rewrittenFile : List Step :=
  [.load "early" (.file "/tmp/a"), .writeFile "/tmp/a" (.fields (impulse 1)),
    .load "first" (.file "/tmp/./a"), .writeFile "/tmp//a" (.fields (impulse 2)),
    .load "later" (.file "/tmp/a"), .load "own" (.buffer (.fields (impulse 2)))]

/-- What came of these loads. -/
theorem view_rewrittenFile :
    ((Session.new 8000 1).loads rewrittenFile).map
        (fun a => a.outcome.toOption.map fun (n, d) => (n, d.samples))
      = [none, some (0, [1]), some (0, [1]), some (1, [2])] := by
  cbv

theorem loads_once_rewrittenFile :
    ((Session.new 8000 1).loads rewrittenFile).map
        (fun a => a.outcome.toOption.map fun (n, d) => (n, d.samples))
      = [none, some (0, [1]), some (0, [1]), some (1, [2])] ∧
    WriteOnce 8000 ((Session.new 8000 1).loads rewrittenFile) :=
  ⟨view_rewrittenFile, (loads_once 8000 1 .empty rewrittenFile).1⟩

end SpatialAudio
