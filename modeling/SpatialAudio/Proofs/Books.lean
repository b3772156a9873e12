import SpatialAudio.Proofs.Generations

/-!
# Proofs/Books — what a graph keeps beside its nodes and connections

Beside nodes and connections a graph keeps **books**: its sample rate, the blocks begun, the faults
not yet taken and the rings.  Nothing but a block, a new ring, and whoever takes faults or samples
out writes into them (`Happening.books`).  A block that is given up counts itself and logs one
fault, if there is room; a block that is played counts itself and may write into rings
(`books_pull`).
-/

namespace SpatialAudio

open SpatialAudio.Graph

/-- What is kept beside nodes and connections. -/
structure Books where
  sampleRate : Nat
  blocks : Nat
  faults : List Fault
  faultCapacity : Nat
  rings : List Ring

/-- The books of a graph. -/
def Graph.books (g : Graph) : Books := ⟨g.sampleRate, g.blocks, g.faults, g.faultCapacity, g.rings⟩

/-- The books after a block that was given up for an error of `node`. -/
def Books.abandoned (b : Books) (node : NodeId) (error : Error) : Books :=
  { b with
    blocks := b.blocks + 1
    faults := if b.faults.length < b.faultCapacity then b.faults ++ [⟨b.blocks, node, error⟩]
      else b.faults }

/-- The books after a block that was played. -/
def Books.played (b : Books) (rings : List Ring) : Books :=
  { b with blocks := b.blocks + 1, rings }

namespace Graph

variable {g g' : Graph} {id : NodeId} {i : Nat} {l : Layout}

/-! ## Operations that leave the books alone -/

/-- The operation keeps the books, whatever its outcome. -/
def KeepsBooks {α : Type} (m : GraphM α) : Prop := ∀ g, (m.run g).2.books = g.books

section KeepsBooks

variable {α β : Type}

theorem KeepsBooks.bind {m : GraphM α} {f : α → GraphM β} (hm : KeepsBooks m)
    (hf : ∀ a, KeepsBooks (f a)) : KeepsBooks (m >>= f) := by
  intro g
  have hg := hm g
  rw [run_bind]
  rcases hr : m.run g with ⟨_ | a, g'⟩
  · rw [hr] at hg
    exact hg
  · rw [hr] at hg
    exact (hf a g').trans hg

theorem keepsBooks_pure (a : α) : KeepsBooks (pure a) := fun _ => rfl

theorem keepsBooks_change {f : Graph → Except Error Graph}
    (hf : ∀ {g g'}, f g = .ok g' → g'.books = g.books) : KeepsBooks (GraphM.change f) :=
  fun g => inv_change (I := fun g' => g'.books = g.books) rfl fun _ => hf

theorem keepsBooks_update {f : Graph → Except Failure Graph}
    (hf : ∀ {g g'}, f g = .ok g' → g'.books = g.books) : KeepsBooks (GraphM.update f) :=
  fun g => inv_update (I := fun g' => g'.books = g.books) rfl fun _ => hf

theorem keepsBooks_forM {f : α → GraphM Unit} (hf : ∀ a, KeepsBooks (f a)) (l : List α) :
    KeepsBooks (l.forM f) := by
  induction l with
  | nil => exact keepsBooks_pure ()
  | cons a l ih => exact (hf a).bind fun _ => ih

end KeepsBooks

theorem books_foldl {α : Type} {f : Graph → α → Graph} (hf : ∀ g a, (f g a).books = g.books)
    (l : List α) (g : Graph) : (l.foldl f g).books = g.books := by
  induction l generalizing g with
  | nil => rfl
  | cons a l ih => exact (ih _).trans (hf g a)

/-- What every step of a fold does, the fold does. -/
theorem rel_foldlM {ε α : Type} {R : Graph → Graph → Prop} (hrefl : ∀ g, R g g)
    (htrans : ∀ {g g' g''}, R g g' → R g' g'' → R g g'') {f : Graph → α → Except ε Graph}
    (hf : ∀ {g g' a}, f g a = .ok g' → R g g') {l : List α} (h : l.foldlM f g = .ok g') :
    R g g' := by
  induction l generalizing g with
  | nil =>
    cases h
    exact hrefl _
  | cons a l ih =>
    rw [List.foldlM_cons] at h
    obtain ⟨g₁, hg₁, h⟩ := bind_eq_ok.mp h
    exact htrans (hf hg₁) (ih h)

theorem books_applyLayoutAt (h : g.applyLayoutAt i l = .ok g') : g'.books = g.books := by
  obtain ⟨f, rfl, -⟩ := applyLayoutAt_eq_modifyAt h
  rfl

theorem books_applyLayout (h : g.applyLayout id l = .ok g') : g'.books = g.books := by
  obtain ⟨i, -, h⟩ := bind_eq_ok.mp h
  exact books_applyLayoutAt h

theorem books_modifyProperty (g : Graph) (id : NodeId) (p : PropertyId) (f : Property → Property) :
    (g.modifyProperty id p f).books = g.books := by
  rw [modifyProperty]
  split <;> rfl

theorem reschedule_books (g : Graph) : g.reschedule.books = g.books := by
  rw [reschedule]
  split <;> rfl

theorem books_connectAt {a o b k : Nat} (h : g.connectAt a o b k = .ok g') :
    g'.books = g.books := by
  unfold connectAt at h
  simp only [bind_eq_ok, guard_eq_ok] at h
  obtain ⟨_, -, _, -, _, -, _, -, _, -, -, h⟩ := h
  split at h
  · cases h
    rfl
  · cases h
    exact reschedule_books _

theorem books_disconnectAt {a o : Nat} (h : g.disconnectAt a o = .ok g') : g'.books = g.books := by
  unfold disconnectAt at h
  simp only [bind_eq_ok] at h
  obtain ⟨_, -, _, -, h⟩ := h
  split at h
  · cases h
    exact reschedule_books _
  · cases h
    rfl

theorem books_removeAt (depth : Nat) (g : Graph) (i : Nat) :
    (removeAt depth g i).books = g.books := by
  induction depth generalizing g i with
  | zero => rfl
  | succ depth ih =>
    have hfirst := books_foldl ih (g.ownedBy (g.handleAt i)) g
    rw [removeAt]
    generalize (g.ownedBy (g.handleAt i)).foldl (removeAt depth) g = g₁ at hfirst ⊢
    rw [← hfirst]
    change (if g₁.root = some i then { g₁ with root := none, schedule := [] } else g₁).books = _
    split <;> rfl

theorem books_remove (h : g.remove id = .ok g') : g'.books = g.books := by
  obtain ⟨i, -, h⟩ := bind_eq_ok.mp h
  cases h
  exact (reschedule_books _).trans (books_removeAt _ _ _)

theorem books_place (g : Graph) (n : Node) : (g.place n).2.books = g.books := by
  rw [place]
  split <;> rfl

theorem keepsBooks_associate (k : NodeKind) (l : Layout) : KeepsBooks (associate k l) := by
  intro g
  rw [associate_run]
  split
  · next happly => exact (books_applyLayoutAt happly).trans (books_place g _)
  · exact books_place g _

theorem keepsBooks_recomputeMap (id : NodeId) : KeepsBooks (recomputeMap id) := by
  intro g
  by_cases hex : ∃ n q, g.node id = .ok n ∧ n.kind = .amplitudePanner q
  · obtain ⟨n, q, hn, hk⟩ := hex
    rw [run_recomputeMap hn hk]
    split
    · next happly => exact (books_applyLayout happly).trans rfl
    · rfl
  · obtain ⟨e, herror⟩ := run_recomputeMap_of_not fun n q hn hk => hex ⟨n, q, hn, hk⟩
    rw [herror]

theorem keepsBooks_addObserver (phase : Phase) (id : NodeId) (p : PropertyId) (o : Observer) :
    KeepsBooks (GraphM.change fun g => g.addObserver phase id p o) := by
  refine keepsBooks_change fun {g g'} hg' => ?_
  obtain ⟨-, rfl⟩ := addObserver_eq_ok.mp hg'
  exact books_modifyProperty g id p _

theorem keepsBooks_connect (a : NodeId) (o : Nat) (b : NodeId) (k : Nat) :
    KeepsBooks (GraphM.change fun g => g.connect a o b k) :=
  keepsBooks_change fun hg' => books_connectAt (connect_eq_ok.mp hg').2.2

theorem keepsBooks_makeSubgraph (owner : NodeId) (ends : Interior) (inside : List NodeId) :
    KeepsBooks (GraphM.change fun g => g.makeSubgraph owner ends inside) := by
  have howned : ∀ {g g' : Graph} {y : NodeId} {f : Node → Node},
      (do return g.modifyAt (← g.index y) f : Except Error Graph) = .ok g' →
        g'.books = g.books := by
    intro g g' y f h
    obtain ⟨j, -, h⟩ := bind_eq_ok.mp h
    cases h
    rfl
  refine keepsBooks_change fun {g g'} hg' => ?_
  obtain ⟨_, -, hg'⟩ := bind_eq_ok.mp hg'
  obtain ⟨_, -, hg'⟩ := bind_eq_ok.mp hg'
  obtain ⟨g₁, hfold, hg'⟩ := bind_eq_ok.mp hg'
  exact (howned hg').trans (rel_foldlM (R := fun g g' => g'.books = g.books) (fun _ => rfl)
    (fun h h' => h'.trans h) howned hfold)

theorem keepsBooks_hrtfKind (data : Dataset) : KeepsBooks (hrtfKind data) := by
  intro g
  rw [hrtfKind]
  split <;> rfl

theorem keepsBooks_assemble (data : Dataset) : KeepsBooks (Multipanner.assemble data) := by
  have hhrtf : KeepsBooks (createHrtfPanner data) :=
    (keepsBooks_hrtfKind data).bind fun _ => (keepsBooks_associate _ _).bind fun _ =>
      (keepsBooks_addObserver _ _ _ _).bind fun _ => (keepsBooks_addObserver _ _ _ _).bind fun _ =>
        keepsBooks_pure _
  have hamplitude : KeepsBooks createAmplitudePanner :=
    (keepsBooks_associate _ _).bind fun _ => (keepsBooks_recomputeMap _).bind fun _ =>
      keepsBooks_pure _
  exact hhrtf.bind fun _ => hamplitude.bind fun _ => (keepsBooks_associate _ _).bind fun _ =>
    (keepsBooks_associate _ _).bind fun _ => (keepsBooks_connect _ _ _ _).bind fun _ =>
      (keepsBooks_connect _ _ _ _).bind fun _ => (keepsBooks_associate _ _).bind fun _ =>
        (keepsBooks_makeSubgraph _ _ _).bind fun _ =>
          (keepsBooks_forM (fun _ => keepsBooks_addObserver _ _ _ _) _).bind fun _ =>
            keepsBooks_pure _

/-! ## Blocks -/

theorem books_proposeAll {schedule : List Nat} {refused : Option (Nat × Error)}
    (h : proposeAll schedule g = .ok (g', refused)) : g'.books = g.books := by
  induction schedule generalizing g with
  | nil =>
    cases h
    rfl
  | cons i rest ih =>
    rw [proposeAll] at h
    split at h
    · exact ih h
    · dsimp only at h
      split at h
      · exact (ih h).trans rfl
      · split at h
        · next happly => exact (ih h).trans ((books_applyLayoutAt happly).trans rfl)
        · cases h
          rfl
        · cases h

theorem books_clearOwners (depth : Nat) (g : Graph) (owner : Option NodeId) :
    (clearOwners depth g owner).books = g.books := by
  induction depth generalizing g owner with
  | zero => rfl
  | succ depth ih =>
    cases owner with
    | none => rfl
    | some id =>
      rw [clearOwners]
      split
      · exact ih _ _
      · rfl

theorem books_processAt (h : g.processAt i = .ok g') :
    g'.books = { g.books with rings := g'.rings } := by
  rw [processAt] at h
  split at h
  · cases h
    rfl
  · dsimp only at h
    split at h
    · cases h
      rfl
    · obtain ⟨done, -, h⟩ := bind_eq_ok.mp h
      cases h
      rfl

theorem books_play (h : g.play = .ok g') : g'.books = { g.books with rings := g'.rings } := by
  obtain ⟨done, hdone, h⟩ := bind_eq_ok.mp h
  have hdone : done.books = { g.books with rings := done.rings } :=
    rel_foldlM (R := fun g g' => g'.books = { g.books with rings := g'.rings }) (fun _ => rfl)
      (fun h h' => by rw [h', h]) books_processAt (liftM_abort_eq_ok.mp hdone)
  cases h
  have hclear := books_foldl (f := clearAround) (fun g i => books_clearOwners _ g _)
    done.schedule done
  have hrings : (done.schedule.foldl clearAround done).rings = done.rings :=
    congrArg Books.rings hclear
  rw [hclear, hdone, hrings]

theorem books_begun (g : Graph) (root : Nat) :
    (g.begun root).books = { g.books with blocks := g.blocks + 1 } := by
  rw [begun, scheduleFor]
  split <;> rfl

/-- The node and the error for which a block is given up. -/
def givesUp? (g : Graph) (id : NodeId) : Option (NodeId × Error) :=
  match g.prepare id with
  | .ok (_, _, some (culprit, error)) => some (g.handleAt culprit, error)
  | _ => none

/-- **What a block writes into the books.** -/
theorem books_pull (h : g.pull id = .ok g') : g'.books = match g.givesUp? id with
    | some (node, error) => g.books.abandoned node error
    | none => g.books.played g'.rings := by
  rw [pull_eq_prepare] at h
  obtain ⟨⟨root, ready, refused⟩, hready, h⟩ := bind_eq_ok.mp h
  obtain ⟨-, -, hpropose⟩ := prepare_eq_ok.mp hready
  have hbooks : ready.books = { g.books with blocks := g.blocks + 1 } :=
    (books_proposeAll hpropose).trans (books_begun g root)
  rw [givesUp?, hready]
  cases refused with
  | some refusal =>
    obtain ⟨culprit, error⟩ := refusal
    obtain rfl := pure_eq_ok.mp h
    have hblock : (g.scheduleFor root).blocks = g.blocks := by
      rw [scheduleFor]
      split <;> rfl
    have hhandle : ready.handleAt culprit = g.handleAt culprit := by
      rw [(beside_proposeAll hpropose).handleAt, begun, scheduleFor]
      split <;> rfl
    have hfaults : ready.faults = g.faults := congrArg Books.faults hbooks
    have hcapacity : ready.faultCapacity = g.faultCapacity := congrArg Books.faultCapacity hbooks
    have hsilenced : ∀ faults, Graph.books { (ready.modifyAt root fun n =>
        { n with outputs := n.outputs.map fun _ => Block.silent }) with faults }
        = { ready.books with faults } := fun _ => rfl
    rw [abandon, hfaults, hcapacity, hhandle, hblock]
    dsimp only [Books.abandoned, books]
    split
    · exact (hsilenced _).trans (by rw [hbooks]; rfl)
    · exact hbooks
  | none =>
    exact (books_play h).trans (by rw [hbooks]; rfl)

/-- A block counts itself, also one that is given up. -/
theorem blocks_pull (h : g.pull id = .ok g') : g'.blocks = g.blocks + 1 := by
  refine (congrArg Books.blocks (books_pull h)).trans ?_
  split <;> rfl

/-- A block that is given up is no failure. -/
theorem pull_of_givesUp {node : NodeId} {error : Error} (h : g.givesUp? id = some (node, error)) :
    ∃ g', g.pull id = .ok g' := by
  rw [givesUp?] at h
  split at h
  · next hready =>
    rw [pull_eq_prepare, hready]
    exact ⟨_, rfl⟩
  · cases h

/-- **A block for a handle that is no longer good is refused.** -/
theorem pull_of_stale (hid : g.node id = .error (.staleNode id)) :
    g.pull id = .error (.refused (.staleNode id)) := by
  rw [pull, index_of_stale hid]
  rfl

/-- A block for a good handle is refused by nothing. -/
theorem Sound.pull_error (h : g.Sound) {n : Node} (hn : g.node id = .ok n) {e : Failure}
    (hpull : g.pull id = .error e) : ∃ a, e = .aborted a := by
  have hindex : g.index id = .ok id.index := by
    rw [index, hn]
    rfl
  have hside := h.nested.sourceSide hn
  have hlift : ∀ {α : Type} {x : Except Abort α}, (liftM x : Except Failure α) = .error e →
      ∃ a, e = .aborted a := by
    intro α x hx
    cases x with
    | ok b => cases hx
    | error a =>
      cases hx
      exact ⟨a, rfl⟩
  rw [Graph.pull, hindex] at hpull
  rcases bind_eq_error.mp hpull with hpull | ⟨_, hi, hpull⟩
  · cases hpull
  cases liftM_error_eq_ok.mp hi
  rw [hside] at hpull
  rcases bind_eq_error.mp hpull with hpull | ⟨_, -, hpull⟩
  · cases hpull
  rcases bind_eq_error.mp hpull with hpull | ⟨⟨ready, refused⟩, -, hpull⟩
  · exact hlift hpull
  · cases refused with
    | some refusal => cases hpull
    | none =>
      rcases bind_eq_error.mp hpull with hpull | ⟨_, -, hpull⟩
      · exact hlift hpull
      · cases hpull

end Graph

/-! ## Happenings -/

/-- The happening may write into the books. -/
def Happening.writes : Happening → Bool
  | deed (.pull _) | deed (.addRing _) | deed .clearFaults | deed (.refill _ _) => true
  | _ => false

theorem Deed.books {α : Type} (d : Deed α) (h : (Happening.deed d).writes = false) (g : Graph) :
    (d.after g).books = g.books := by
  cases d with
  | associate kind layout => exact keepsBooks_associate kind layout g
  | assemble data => exact keepsBooks_assemble data g
  | remove id => exact keepsBooks_change books_remove g
  | connect a o b k => exact keepsBooks_connect a o b k g
  | connectInterior a o b k =>
    exact keepsBooks_change (fun hg' => books_connectAt (connectInterior_eq_ok.mp hg').2.2) g
  | disconnect a o =>
    exact keepsBooks_change (fun hg' => books_disconnectAt (disconnect_eq_ok.mp hg').2) g
  | disconnectInterior a o =>
    exact keepsBooks_change (fun hg' => books_disconnectAt (disconnectInterior_eq_ok.mp hg').2) g
  | arrange id layout => exact keepsBooks_update books_applyLayout g
  | observe phase id p o => exact keepsBooks_addObserver phase id p o g
  | recomputeMap id => exact keepsBooks_recomputeMap id g
  | markRecompute id =>
    refine keepsBooks_change (fun {g g'} hg' => ?_) g
    obtain ⟨_, -, hg'⟩ := bind_eq_ok.mp hg'
    obtain ⟨_, -, hg'⟩ := bind_eq_ok.mp hg'
    cases hg'
    rfl
  | adopt id strategy =>
    refine keepsBooks_change (fun {g g'} hg' => ?_) g
    obtain ⟨_, -, hg'⟩ := bind_eq_ok.mp hg'
    cases hg'
    rfl
  | pull | addRing | clearFaults | refill => cases h

/-- **Nothing else writes into the books.** -/
theorem Happening.books (k : Happening) (h : k.writes = false) (g : Graph) :
    (k.after g).books = g.books := by
  cases k with
  | deed d => exact d.books h g
  | taken phase id p => exact books_modifyProperty g id p _
  | restored phase id p os => exact books_modifyProperty g id p _
  | stored id p v => exact books_modifyProperty g id p _

/-- The books after a deed that may write into them. -/
theorem books_deed_pull (id : NodeId) (g : Graph) :
    ((Deed.pull id).after g).books = match g.pull id, g.givesUp? id with
      | .ok _, some (node, error) => g.books.abandoned node error
      | .ok g', none => g.books.played g'.rings
      | .error _, _ => g.books := by
  rw [Deed.after, Deed.run, run_update]
  cases hpull : g.pull id with
  | error e => rfl
  | ok g' =>
    have hbooks := books_pull hpull
    cases hup : g.givesUp? id with
    | some refusal => rwa [hup] at hbooks
    | none => rwa [hup] at hbooks

/-- A ring that fits is added behind all others. -/
theorem run_addRing (capacity : Nat) (g : Graph) : (Graph.addRing capacity).run g =
    if Memory.fits capacity Memory.sampleSize = true then
      (.ok g.rings.length, { g with rings := g.rings ++ [Ring.new capacity] })
    else (.error (.aborted .outOfMemory), g) := by
  rw [Graph.addRing]
  cases Memory.fits capacity Memory.sampleSize <;> rfl

/-- The sample rate stays. -/
theorem Happening.sampleRate (k : Happening) (g : Graph) :
    (k.after g).sampleRate = g.sampleRate := by
  cases hk : k.writes with
  | false => exact congrArg Books.sampleRate (k.books hk g)
  | true =>
    match k, hk with
    | .deed (.pull id), _ =>
      have hbooks := congrArg Books.sampleRate (books_deed_pull id g)
      refine hbooks.trans ?_
      split <;> rfl
    | .deed (.addRing capacity), _ =>
      change ((Graph.addRing capacity).run g).2.sampleRate = _
      rw [run_addRing]
      split <;> rfl
    | .deed .clearFaults, _ => rfl
    | .deed (.refill number ring), _ => rfl

theorem sampleRate_replay (hs : List Happening) (g : Graph) :
    (replay g hs).sampleRate = g.sampleRate := by
  induction hs generalizing g with
  | nil => rfl
  | cons k hs ih => exact (ih _).trans (k.sampleRate g)

end SpatialAudio
