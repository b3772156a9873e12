import SpatialAudio.Proofs.Registration
import SpatialAudio.Proofs.Stories

/-!
# Proofs/Invocation — which observers run when a value is stored

Every call that stores a value is in the tale of its session, with the graph that the value was
stored in (`Chronicle.tale`).  The observers that run because of it are those that the property lists
at that moment, all of them, once and in order, unless one fails (`Call.Right`).

But a property lists only some of the observers that are registered.  While the observers of a
property are at work, their whole list is taken out: not only the one that runs, but also those that
are through and those that wait.  They are registered all the same and will be put back
(`Call.registered`).  So a nested call on the same property owes them a run (`Call.owed`) that they
do not get: all that are owed one run if and only if every notification of that property that is
under way has no other observer than the one at work (`Call.Right.invoked_eq_owed`).
-/

namespace SpatialAudio

open SpatialAudio.Graph

/-! ## Chronicles -/

/-- What a happening stores, with the graph afterwards. -/
def Happening.entry : Happening → Graph → List (NodeId × PropertyId × PropertyValue × Graph)
  | stored id p v, g => [(id, p, v, g.modifyProperty id p (·.store v))]
  | _, _ => []

/-- What happenings store, in order. -/
def ledger : Graph → List Happening → List (NodeId × PropertyId × PropertyValue × Graph)
  | _, [] => []
  | g, h :: hs => h.entry g ++ ledger (h.after g) hs

theorem ledger_append (g : Graph) (hs ks : List Happening) :
    ledger g (hs ++ ks) = ledger g hs ++ ledger (replay g hs) ks := by
  induction hs generalizing g with
  | nil => rfl
  | cons h hs ih =>
    rw [List.cons_append, ledger, ledger, ih, List.append_assoc]
    rfl

/-- What holds of all tales from the graph they start with, because it holds of their parts. -/
structure Chronicle (P : Graph → Tale → Prop) : Prop where
  empty : ∀ g, P g .empty
  append : ∀ g t u, P g t → P (replay g t.happenings) u → P g (t ++ u)
  single : ∀ g h, (∀ id p v, h ≠ .stored id p v) → P g (.single h)
  stored : ∀ (s : Session) (run : Event → Observer → Action Unit) (stack : List Frame) (id : NodeId)
    (p : PropertyId) (v : PropertyValue) (g g' : Graph), g.store id p v = .ok g' → s.graph = g' →
    P g ⟨[.stored id p v], [storedCall run stack id p v s]⟩

namespace Chronicle

variable {P : Graph → Tale → Prop} (hP : Chronicle P)

include hP

theorem plan {α : Type} {set : Setter} {tell : Teller}
    (htold : ∀ id p v, ToldBy (set id p v) (tell id p v))
    (htell : ∀ id p v s, P s.graph (tell id p v s)) (plan : Plan α) (s : Session) :
    P s.graph (plan.tale set tell s) := by
  induction plan generalizing s with
  | done r => exact hP.empty _
  | look next ih => exact ih s s
  | note f next ih => exact ih { f s with graph := s.graph }
  | deed d next ih =>
    exact hP.append _ _ _ (hP.single _ _ nofun) (ih _ { s with graph := d.after s.graph })
  | set id p v next ih =>
    refine hP.append _ _ _ (htell id p v s) ?_
    rw [← htold id p v s]
    exact ih _ _

theorem rounds {run : Observer → Action Unit}
    {tell : List Observer → Observer → List Observer → Session → Tale}
    (htold : ∀ through o waiting, ToldBy (run o) (tell through o waiting))
    (htell : ∀ through o waiting s, P s.graph (tell through o waiting s))
    (through waiting : List Observer) (s : Session) :
    P s.graph (roundsTale run tell through waiting s) := by
  induction waiting generalizing through s with
  | nil => exact hP.empty _
  | cons o rest ih =>
    rw [roundsTale]
    refine hP.append _ _ _ (htell through o rest s) ?_
    rw [← htold through o rest s]
    split
    · next heq =>
      rw [heq]
      exact ih _ _
    · exact hP.empty _

theorem notify {run : Event → Observer → Action Unit}
    {tell : Frame → Event → Observer → Session → Tale}
    (htold : ∀ frame event o, ToldBy (run event o) (tell frame event o))
    (htell : ∀ frame event o s, P s.graph (tell frame event o s)) (phase : Phase) (event : Event)
    (s : Session) : P s.graph (notifyTale run tell phase event s) := by
  refine hP.append _ _ _ (hP.append _ _ _ (hP.single _ _ nofun) ?_) (hP.single _ _ nofun)
  exact hP.rounds (fun through o waiting => htold _ event o)
    (fun through o waiting => htell _ event o) [] _ { s with graph := _ }

theorem setWith {run : Event → Observer → Action Unit}
    {tell : Frame → Event → Observer → Session → Tale}
    (htold : ∀ frame event o, ToldBy (run event o) (tell frame event o))
    (htell : ∀ frame event o s, P s.graph (tell frame event o s)) (stack : List Frame)
    (id : NodeId) (p : PropertyId) (v : PropertyValue) (s : Session) :
    P s.graph (setTale run tell stack id p v s) := by
  rw [setTale]
  split
  · exact hP.empty _
  · refine hP.append _ _ _ (hP.notify htold htell .before _ s) ?_
    rw [← toldBy_notify htold .before ⟨id, p, some v⟩ s]
    split
    · next heq =>
      rw [heq]
      exact hP.empty _
    · next s₁ heq =>
      rw [heq]
      split
      · exact hP.empty _
      · next g hstore =>
        have hg : replay s₁.graph [.stored id p v] = g := by
          obtain ⟨_, -, hg⟩ := bind_eq_ok.mp hstore
          exact pure_eq_ok.mp hg
        refine hP.append _ _ _ (hP.stored _ run stack id p v s₁.graph g hstore rfl) ?_
        rw [hg]
        exact hP.notify htold htell .after _ { s₁ with graph := g }

theorem change (depth : Nat) (stack : List Frame) (id : NodeId) (p : PropertyId)
    (v : PropertyValue) (s : Session) : P s.graph (changeTale depth stack id p v s) := by
  induction depth generalizing stack id p v s with
  | zero => exact hP.empty _
  | succ depth ih =>
    refine hP.setWith (fun frame event o => ?_) (fun frame event o s => ?_) stack id p v s
    · rw [← Observer.run_plan]
      exact toldBy_plan (toldBy_change depth (frame :: stack)) (o.plan event)
    · exact hP.plan (toldBy_change depth (frame :: stack)) (ih (frame :: stack)) (o.plan event) s

/-- **What chronicles tell holds of every session.** -/
theorem tale (s : Session) (steps : List Step) : P s.graph (s.tale steps) := by
  induction steps generalizing s with
  | nil => exact hP.empty _
  | cons step rest ih =>
    refine hP.append _ _ _ (hP.plan toldBy_set (fun id p v s => ?_) step.plan s) ?_
    · exact hP.change _ [] id p v s
    · rw [← graph_step s step]
      exact ih _

end Chronicle

/-! ## Observers that are registered -/

/-- The observers that a property lists. -/
def Graph.listed (g : Graph) (phase : Phase) (id : NodeId) (p : PropertyId) : List Observer :=
  (g.takeObservers phase id p).1

namespace Frame

/-- The observers that were taken out together. -/
def taken (f : Frame) : List Observer := f.through ++ f.running :: f.waiting

/-- The others among them. -/
def idle (f : Frame) : List Observer := f.through ++ f.waiting

/-- The observer at work was told that a value was stored in the property. -/
def on (f : Frame) (id : NodeId) (p : PropertyId) : Bool :=
  f.phase = .after ∧ f.node = id ∧ f.property = p

end Frame

/-- Puts back what was taken out, innermost first. -/
def reinstate : List Frame → Graph → Graph
  | [], g => g
  | f :: rest, g => reinstate rest (g.restoreObservers f.phase f.node f.property f.taken)

namespace Call

variable (c : Call)

/-- The observers that the property lists when the value is stored. -/
def listed : List Observer := c.graph.listed .after c.node c.property

/-- The observers that are registered then, whether or not they are listed. -/
def registered : List Observer := (reinstate c.stack c.graph).listed .after c.node c.property

/-- The notifications of the same property that are under way, outermost first. -/
def underWay : List Frame := (c.stack.filter fun f => f.on c.node c.property).reverse

/-- The observers that are registered then, save those at work. -/
def owed : List Observer := c.underWay.flatMap Frame.idle ++ c.listed

end Call

namespace Graph

variable {g : Graph} {id : NodeId} {n : Node} {p : PropertyId}

theorem listed_of_node (hn : g.node id = .ok n) (phase : Phase) (p : PropertyId) :
    g.listed phase id p = (n.properties.observers? phase p).getD [] := by
  rw [listed, takeObservers, Properties.observers?]
  cases hx : n.properties.get? p with
  | some x =>
    rw [property_eq_ok.mpr ⟨n, hn, hx⟩]
    rfl
  | none =>
    simp only [property, hn, bind, Except.bind, hx]
    rfl

/-- What is put back on one property stands in front of what it lists, and nowhere else. -/
theorem node_restoreObservers (hn : g.node id = .ok n) (f : Frame) (p : PropertyId) :
    ∃ n', (g.restoreObservers f.phase f.node f.property f.taken).node id = .ok n' ∧
      n'.properties.observers? .after p
        = (n.properties.observers? .after p).map fun os => if f.on id p then f.taken ++ os else os := by
  by_cases hid : f.node = id
  · subst hid
    refine ⟨_, by rw [restoreObservers, modifyProperty_of_node hn, node_modifyAt _ hn, if_pos rfl], ?_⟩
    rw [Properties.observers?_modify _ _ _ _ _ (f.taken ++ ·)]
    by_cases hon : f.property = p ∧ f.phase = .after
    · simp [hon, Frame.on]
    · rw [if_neg hon]
      have hoff : f.on f.node p = false := by
        simp only [Frame.on, decide_eq_false_iff_not]
        exact fun h => hon ⟨h.2.2, h.1⟩
      simp [hoff]
  · have hoff : f.on id p = false := by
      simp only [Frame.on, decide_eq_false_iff_not]
      exact fun h => hid h.2.1
    refine ⟨n, ?_, by simp [hoff]⟩
    rw [restoreObservers, modifyProperty]
    split
    · next hcontains =>
      obtain ⟨m, hm⟩ := contains_iff.mp hcontains
      rw [node_modifyAt _ hm, if_neg (Ne.symm hid), hn]
    · exact hn

/-- Once everything is put back, what was taken out stands in front, outermost first. -/
theorem node_reinstate (stack : List Frame) (hn : g.node id = .ok n) (p : PropertyId) :
    ∃ n', (reinstate stack g).node id = .ok n' ∧ n'.properties.observers? .after p
      = (n.properties.observers? .after p).map
          (((stack.filter fun f => f.on id p).reverse.flatMap Frame.taken) ++ ·) := by
  induction stack generalizing g n with
  | nil =>
    refine ⟨n, hn, ?_⟩
    simp
  | cons f rest ih =>
    obtain ⟨n₁, hn₁, hobservers⟩ := node_restoreObservers hn f p
    obtain ⟨n', hn', hrest⟩ := ih hn₁
    refine ⟨n', hn', ?_⟩
    rw [hrest, hobservers, Option.map_map]
    by_cases hon : f.on id p <;> simp [hon, Function.comp_def]

end Graph

/-- **The observers that are registered are those taken out and those listed.** -/
theorem Call.registered_eq {c : Call} {n : Node} {x : Property} (hn : c.graph.node c.node = .ok n)
    (hx : n.properties.get? c.property = some x) :
    c.registered = c.underWay.flatMap Frame.taken ++ c.listed := by
  obtain ⟨n', hn', hobservers⟩ := node_reinstate c.stack hn c.property
  rw [registered, listed_of_node hn', hobservers, listed, listed_of_node hn, Properties.observers?, hx]
  rfl

/-! ## Observers that run -/

theorem isPrefix_invoked (run : Observer → Action Unit) (os : List Observer) (s : Session) :
    invoked run os s <+: os := by
  induction os generalizing s with
  | nil => exact List.prefix_rfl
  | cons o os ih =>
    rw [invoked]
    split
    · exact List.cons_prefix_cons.mpr ⟨rfl, ih _⟩
    · exact List.cons_prefix_cons.mpr ⟨rfl, List.nil_prefix⟩

theorem invoked_eq_self {run : Observer → Action Unit} {os : List Observer} {s : Session}
    (h : ((os.forM run).run s).1 = .ok ()) : invoked run os s = os := by
  induction os generalizing s with
  | nil => rfl
  | cons o os ih =>
    change ((run o >>= fun _ => os.forM run).run s).1 = .ok () at h
    rw [run_bind] at h
    rw [invoked]
    split
    · next heq =>
      rw [heq] at h
      exact congrArg _ (ih h)
    · next heq =>
      rw [heq] at h
      cases h

namespace Call

/-- The call is told as it was: its value is in its place, and of the observers that the property
lists all run, in order, up to the first that fails. -/
structure Right (c : Call) : Prop where
  value : c.graph.value c.node c.property = .ok c.value
  registered : c.registered = c.underWay.flatMap Frame.taken ++ c.listed
  inOrder : c.invoked <+: c.listed
  all : c.outcome = .ok () → c.invoked = c.listed

theorem right_storedCall {g : Graph} {s : Session} (run : Event → Observer → Action Unit)
    (stack : List Frame) {id : NodeId} {p : PropertyId} {v : PropertyValue}
    (hstore : g.store id p v = .ok s.graph) : (storedCall run stack id p v s).Right := by
  obtain ⟨x, hx, hg⟩ := bind_eq_ok.mp hstore
  obtain ⟨n, hn, hget⟩ := property_eq_ok.mp hx
  have hnode : s.graph.node id = .ok { n with properties := n.properties.modify p (·.store v) } := by
    rw [← pure_eq_ok.mp hg, modifyProperty_of_node hn, node_modifyAt _ hn, if_pos rfl]
  have hstored := Properties.get?_store hget v
  refine ⟨?_, registered_eq hnode hstored, isPrefix_invoked _ _ _, fun hok => invoked_eq_self ?_⟩
  · change s.graph.value id p = .ok v
    rw [Graph.value, property_eq_ok.mpr ⟨_, hnode, hstored⟩]
    rfl
  · rw [storedCall, run_notify_eq run .after ⟨id, p, none⟩ s rfl] at hok
    exact hok

variable {c : Call}

/-- **All observers that are owed a run get one, if and only if no other observer of the property
was taken out together with one that is at work.** -/
theorem Right.invoked_eq_owed (h : c.Right) (hok : c.outcome = .ok ()) :
    c.invoked = c.owed ↔ ∀ f ∈ c.underWay, f.idle = [] := by
  rw [h.all hok, owed, List.self_eq_append_left, List.flatMap_eq_nil_iff]

end Call

/-- Calls and stored values are told together. -/
theorem chronicle_right : Chronicle fun g t =>
    t.calls.map (fun c => (c.node, c.property, c.value, c.graph)) = ledger g t.happenings ∧
      ∀ c ∈ t.calls, c.Right where
  empty g := ⟨rfl, fun c hc => absurd hc List.not_mem_nil⟩
  append g t u ht hu := by
    refine ⟨?_, List.forall_mem_append.mpr ⟨ht.2, hu.2⟩⟩
    rw [Tale.calls_append, Tale.happenings_append, List.map_append, ledger_append, ht.1, hu.1]
  single g h hh := by
    refine ⟨?_, fun c hc => absurd hc List.not_mem_nil⟩
    cases h with
    | stored id p v => exact absurd rfl (hh id p v)
    | _ => rfl
  stored s run stack id p v g g' hstore hs := by
    subst hs
    refine ⟨?_, fun c hc => ?_⟩
    · obtain ⟨_, -, hg⟩ := bind_eq_ok.mp hstore
      change [(id, p, v, s.graph)] = [(id, p, v, g.modifyProperty id p (·.store v))]
      rw [← pure_eq_ok.mp hg]
    · rw [List.mem_singleton.mp hc]
      exact Call.right_storedCall run stack hstore

/-! ## Sessions -/

/-- **Which observers run when a value is stored**, at whatever depth the call is nested. -/
theorem invocations_of_tale (s : Session) (steps : List Step) :
    -- the calls are those that stored a value, in order
    (s.tale steps).calls.map (fun c => (c.node, c.property, c.value, c.graph))
      = ledger s.graph (s.tale steps).happenings ∧
    ∀ c ∈ (s.tale steps).calls,
      c.graph.value c.node c.property = .ok c.value ∧
      -- the observers that are registered are those at work, those taken out with them, and others
      c.registered = c.underWay.flatMap Frame.taken ++ c.listed ∧
      -- the others run, each once and in order, up to the first that fails
      c.invoked <+: c.listed ∧ (c.outcome = .ok () → c.invoked = c.listed ∧
        -- so all that are not at work run, if and only if none was taken out with one that is
        (c.invoked = c.owed ↔ ∀ f ∈ c.underWay, f.through = [] ∧ f.waiting = [])) := by
  obtain ⟨hledger, hright⟩ := chronicle_right.tale s steps
  refine ⟨hledger, fun c hc => ?_⟩
  have h := hright c hc
  refine ⟨h.value, h.registered, h.inOrder, fun hok => ⟨h.all hok, ?_⟩⟩
  rw [h.invoked_eq_owed hok]
  exact forall₂_congr fun f _ => List.append_eq_nil_iff

/-- A multipanner whose azimuth is corrected by an observer that was registered last. -/
def correctedAzimuth : List Step :=
  [.load "ears" (.buffer (.fields ⟨44100, 0, 0, [1], 1, [0x3f800000]⟩)),
    .create "panner" (.multipanner "ears"),
    .command (.multipanner "panner" (some "panner")),
    .command (.observe .after "panner" .azimuth "correct" none true
      [.set "panner" .azimuth (.float 20)]),
    .command (.set "panner" .azimuth (.float 10))]

/-- Whether an observer passes a value on to the panners inside a multipanner. -/
def Observer.forwards : Observer → Bool
  | .forwardToPanners => true
  | _ => false

/-- What a call stored, below how many observers, how it ended, and whether the observers that were
invoked and those that were owed a run pass the value on. -/
structure CallView where
  depth : Nat
  node : NodeId
  property : PropertyId
  value : PropertyValue
  outcome : Option Unit
  invoked : List Bool
  owed : List Bool
deriving DecidableEq

/-- The view of a call. -/
def Call.view (c : Call) : CallView :=
  ⟨c.stack.length, c.node, c.property, c.value, c.outcome.toOption,
    c.invoked.map Observer.forwards, c.owed.map Observer.forwards⟩

/-- The first call reaches both observers, the correction none. -/
theorem view_correctedAzimuth :
    (((Session.new 44100 64).tale correctedAzimuth).calls.drop 3).map Call.view
      = [⟨0, ⟨4, 0⟩, .azimuth, .float 10, some (), [true, false], [true, false]⟩,
        ⟨1, ⟨0, 0⟩, .azimuth, .float 10, some (), [false], [false]⟩,
        ⟨1, ⟨1, 0⟩, .azimuth, .float 10, some (), [], []⟩,
        ⟨1, ⟨4, 0⟩, .azimuth, .float 20, some (), [], [true]⟩] ∧
    (((Session.new 44100 64).afterSteps correctedAzimuth).graph.value ⟨4, 0⟩ .azimuth).toOption
      = some (.float 20) ∧
    (((Session.new 44100 64).afterSteps correctedAzimuth).graph.value ⟨0, 0⟩ .azimuth).toOption
      = some (.float 10) := by
  decide +kernel

theorem eq_ok_of_toOption {ε α : Type} {r : Except ε α} {a : α} (h : r.toOption = some a) :
    r = .ok a := by
  cases r with
  | ok _ => exact congrArg Except.ok (Option.some.inj h)
  | error _ => cases h

theorem invocations_correctedAzimuth :
    ∃ c ∈ ((Session.new 44100 64).tale correctedAzimuth).calls, c.stack = [] ∧
      c.value = .float 10 ∧ c.outcome = .ok () ∧ c.invoked.length = 2 ∧ c.invoked = c.owed := by
  obtain ⟨hview, -⟩ := view_correctedAzimuth
  obtain ⟨c, hc, hcall⟩ := List.mem_map.mp (hview ▸ List.mem_cons_self)
  simp only [Call.view, CallView.mk.injEq, List.length_eq_zero_iff] at hcall
  obtain ⟨hstack, -, -, hvalue, hok, hinvoked, -⟩ := hcall
  have hc := List.mem_of_mem_drop hc
  have hok := eq_ok_of_toOption hok
  obtain ⟨-, -, -, hall⟩ := (invocations_of_tale (Session.new 44100 64) correctedAzimuth).2 c hc
  refine ⟨c, hc, hstack, hvalue, hok, ?_, (hall hok).2.mpr fun f hf => ?_⟩
  · rw [← List.length_map (f := Observer.forwards), hinvoked]
    rfl
  · rw [Call.underWay, hstack] at hf
    cases hf

/-- **An observer that was through is not run again for the correction**, so that the panner inside
keeps the value that was corrected. -/
theorem forwarding_skipped_correctedAzimuth :
    (∃ c ∈ ((Session.new 44100 64).tale correctedAzimuth).calls, c.node = ⟨4, 0⟩ ∧
      c.property = .azimuth ∧ c.value = .float 20 ∧ c.outcome = .ok () ∧
      c.owed = [.forwardToPanners] ∧ c.invoked = []) ∧
    ((Session.new 44100 64).afterSteps correctedAzimuth).graph.value ⟨4, 0⟩ .azimuth
      = .ok (.float 20) ∧
    ((Session.new 44100 64).afterSteps correctedAzimuth).graph.value ⟨0, 0⟩ .azimuth
      = .ok (.float 10) := by
  obtain ⟨hview, houter, hinner⟩ := view_correctedAzimuth
  refine ⟨?_, eq_ok_of_toOption houter, eq_ok_of_toOption hinner⟩
  have hlast : CallView.mk 1 ⟨4, 0⟩ .azimuth (.float 20) (some ()) [] [true]
      ∈ (((Session.new 44100 64).tale correctedAzimuth).calls.drop 3).map Call.view := by
    rw [hview]
    exact List.mem_of_getLast? rfl
  obtain ⟨c, hc, hcall⟩ := List.mem_map.mp hlast
  simp only [Call.view, CallView.mk.injEq, List.map_eq_nil_iff] at hcall
  obtain ⟨-, hnode, hproperty, hvalue, hok, hinvoked, howed⟩ := hcall
  obtain ⟨o, ho, hforwards⟩ : ∃ o, c.owed = [o] ∧ o.forwards = true := by
    obtain ⟨o, os, howed, ho, hos⟩ := List.map_eq_cons_iff.mp howed
    exact ⟨o, by rw [howed, List.map_eq_nil_iff.mp hos], ho⟩
  refine ⟨c, List.mem_of_mem_drop hc, hnode, hproperty, hvalue, eq_ok_of_toOption hok, ?_, hinvoked⟩
  cases o with
  | forwardToPanners => exact ho
  | _ => cases hforwards

end SpatialAudio
