import SpatialAudio.Proofs.Books

/-!
# Proofs/Conduct — what steps do not do

Most steps, with all the observers they set off, share three restrictions: they take no fault and no
sample out, they make a sink only right behind the ring that it writes into, and they leave the
**shelf** alone, which is the library with the files that it reads.  The first two are a grammar of
happenings (`Orderly`); together the three hold of a plan (`Plan.Tidy`), of the plans of all
commands and observers, and so, by the way in which `setWith` runs observers, of every value that is
set (`conducted_set`) and of every step but a few (`Step.orderly`, `Step.aside`).
-/

namespace SpatialAudio

open SpatialAudio.Graph

/-! ## Names -/

theorem Bindings.get?_bind_self {α : Type} (b : Bindings α) (label : Label) (a : α) :
    (b.bind label a).get? label = some a := by
  obtain ⟨entries⟩ := b
  induction entries with
  | nil => simp [bind, get?, insertInto]
  | cons head rest ih =>
    rw [bind, get?, insertInto]
    split
    · simp
    · next hne =>
      split
      · simp
      · rw [List.find?_cons_of_neg (by simpa using Ne.symm hne)]
        exact ih

/-! ## Order -/

/-- The deed takes nothing out and makes no sink. -/
def Deed.plain {α : Type} : Deed α → Bool
  | .associate (.ringSink _) _ => false
  | .clearFaults | .refill _ _ => false
  | _ => true

/-- The happening takes nothing out and makes no sink. -/
def Happening.plain : Happening → Bool
  | deed d => d.plain
  | _ => true

/-- Nothing is taken out, and every sink follows its ring. -/
inductive Orderly : Graph → List Happening → Prop
  | nil (g : Graph) : Orderly g []
  | plain {g : Graph} {k : Happening} {ks : List Happening} (hk : k.plain = true)
      (h : Orderly (k.after g) ks) : Orderly g (k :: ks)
  | sink {g : Graph} {capacity channels : Nat} {layout : Layout} {ks : List Happening}
      (hfits : Memory.fits capacity Memory.sampleSize = true)
      (h : Orderly ((Deed.associate (.ringSink (.new g.rings.length channels)) layout).after
        ((Deed.addRing capacity).after g)) ks) :
      Orderly g (.deed (.addRing capacity)
        :: .deed (.associate (.ringSink (.new g.rings.length channels)) layout) :: ks)

theorem Orderly.append {g : Graph} {hs ks : List Happening} (h : Orderly g hs)
    (h' : Orderly (replay g hs) ks) : Orderly g (hs ++ ks) := by
  induction h with
  | nil => exact h'
  | plain hk _ ih => exact .plain hk (ih h')
  | sink hfits _ ih => exact .sink hfits (ih h')

theorem orderly_single {g : Graph} {k : Happening} (hk : k.plain = true) : Orderly g [k] :=
  .plain hk (.nil _)

/-! ## The shelf -/

/-- The library, and the files that it reads. -/
def Session.shelf (s : Session) : Library × Files := (s.library, s.files)

namespace Action

variable {α β : Type}

/-- The action leaves the shelf alone, whatever its outcome. -/
def Aside (a : Action α) : Prop := ∀ s, (a.run s).2.shelf = s.shelf

theorem aside_pure (a : α) : Aside (pure a : Action α) := fun _ => rfl

theorem aside_throw (e : Failure) : Aside (throw e : Action α) := fun _ => rfl

theorem aside_settle (r : Except Failure α) : Aside (settle r) := fun s => by rw [run_settle]

theorem aside_onGraph (m : GraphM α) : Aside (onGraph m) := fun _ => rfl

theorem aside_modify {f : Session → Session} (hf : ∀ s, (f s).shelf = s.shelf) :
    Aside (modify f : Action PUnit) := hf

theorem Aside.bind {a : Action α} {f : α → Action β} (ha : a.Aside) (hf : ∀ x, (f x).Aside) :
    (a >>= f).Aside := by
  intro s
  have hs := ha s
  rw [run_bind]
  rcases hr : a.run s with ⟨_ | x, s'⟩
  · rw [hr] at hs
    exact hs
  · rw [hr] at hs
    exact (hf x s').trans hs

theorem aside_get : Aside (get : Action Session) := fun _ => rfl

theorem aside_named (bindings : Session → Bindings α) (label : Label) :
    Aside (named bindings label) := by
  refine aside_get.bind fun s => ?_
  split
  · exact aside_pure _
  · exact aside_throw _

theorem aside_node (label : Label) : Aside (node label) := aside_named _ _

theorem aside_read (f : Graph → Except Error α) : Aside (read f) := aside_onGraph _

theorem aside_dataset (label : Label) : Aside (dataset label) := by
  refine (aside_named _ _).bind fun number => aside_get.bind fun s => ?_
  split
  · exact aside_pure _
  · exact aside_throw _

theorem aside_bindNode (label : Label) (id : NodeId) : Aside (bindNode label id) :=
  aside_modify fun _ => rfl

theorem aside_write (entry : LogEntry) : Aside (write entry) := aside_modify fun _ => rfl

/-- All results of the action are such. -/
def Gives (P : α → Prop) (a : Action α) : Prop := ∀ s x, (a.run s).1 = .ok x → P x

theorem gives_pure {P : α → Prop} {a : α} (h : P a) : Gives P (pure a) := by
  intro s x hx
  cases hx
  exact h

theorem Gives.bind {P : α → Prop} {Q : β → Prop} {a : Action α} {f : α → Action β} (ha : Gives P a)
    (hf : ∀ x, P x → Gives Q (f x)) : Gives Q (a >>= f) := by
  intro s y hy
  rw [run_bind] at hy
  rcases hr : a.run s with ⟨_ | x, s'⟩
  · rw [hr] at hy
    cases hy
  · rw [hr] at hy
    exact hf x (ha s x (by rw [hr])) s' y hy

theorem gives_any (a : Action α) : Gives (fun _ => True) a := fun _ _ _ => trivial

end Action

open SpatialAudio.Action

/-! ## Tidy plans -/

/-- The plan leaves a shelf alone, takes nothing out, and makes a sink right behind its ring. -/
inductive Plan.Tidy {α : Type} (shelf : Library × Files) : Plan α → Prop
  | done (r : Except Failure α) : Tidy shelf (.done r)
  | look {next : Session → Plan α} (h : ∀ s, s.shelf = shelf → Tidy shelf (next s)) :
      Tidy shelf (.look next)
  | note {f : Session → Session} {next : Plan α} (hf : ∀ s, (f s).shelf = shelf)
      (h : Tidy shelf next) : Tidy shelf (.note f next)
  | deed {β : Type} {d : Deed β} {next : Except Failure β → Plan α} (hd : d.plain = true)
      (h : ∀ r, Tidy shelf (next r)) : Tidy shelf (.deed d next)
  | sink {capacity channels : Nat} {layout : Layout} {next : Except Failure Nat → Plan α}
      {rest : Nat → Except Failure NodeId → Plan α} (herror : ∀ e, Tidy shelf (next (.error e)))
      (hring : ∀ ring, next (.ok ring)
        = .deed (.associate (.ringSink (.new ring channels)) layout) (rest ring))
      (h : ∀ ring r, Tidy shelf (rest ring r)) : Tidy shelf (.deed (.addRing capacity) next)
  | set {id : NodeId} {p : PropertyId} {v : PropertyValue} {next : Except Failure Unit → Plan α}
      (h : ∀ r, Tidy shelf (next r)) : Tidy shelf (.set id p v next)

section Tidy

open Plan

variable {α β : Type} {shelf : Library × Files}

theorem tidy_pure (a : α) : (pure a : Plan α).Tidy shelf := .done _

theorem Plan.Tidy.bind {plan : Plan α} {f : α → Plan β} (h : plan.Tidy shelf)
    (hf : ∀ a, (f a).Tidy shelf) : (plan >>= f).Tidy shelf := by
  change (plan.bind f).Tidy shelf
  induction h with
  | done r =>
    cases r with
    | ok a => exact hf a
    | error e => exact .done _
  | look _ ih => exact .look fun s hs => ih s hs
  | note hg _ ih => exact .note hg ih
  | deed hd _ ih => exact .deed hd ih
  | sink _ hring _ iherror ih =>
    exact .sink iherror (fun ring => congrArg (Plan.bind · f) (hring ring)) ih
  | set _ ih => exact .set ih

theorem Plan.Tidy.attempt {plan : Plan α} (h : plan.Tidy shelf) : plan.attempt.Tidy shelf := by
  induction h with
  | done r => exact .done _
  | look _ ih => exact .look fun s hs => ih s hs
  | note hg _ ih => exact .note hg ih
  | deed hd _ ih => exact .deed hd ih
  | sink _ hring _ iherror ih =>
    exact .sink iherror (fun ring => congrArg Plan.attempt (hring ring)) ih
  | set _ ih => exact .set ih

theorem tidy_act {d : Deed α} (hd : d.plain = true) : (act d).Tidy shelf := .deed hd .done

theorem tidy_assign (id : NodeId) (p : PropertyId) (v : PropertyValue) :
    (assign id p v).Tidy shelf := .set .done

theorem tidy_quiet {a : Action α} (ha : a.Aside) : (quiet a).Tidy shelf :=
  .look fun s hs => .note (fun _ => (ha s).trans hs) (.done _)

/-- A plan goes on with a result that is such. -/
theorem tidy_quiet_bind {P : α → Prop} {a : Action α} {f : α → Plan β} (ha : a.Aside)
    (hgives : a.Gives P) (hf : ∀ x, P x → (f x).Tidy shelf) : (quiet a >>= f).Tidy shelf := by
  refine .look fun s hs => .note (fun _ => (ha s).trans hs) ?_
  cases hr : (a.run s).1 with
  | ok x => exact hf x (hgives s x hr)
  | error e => exact .done _

theorem tidy_node (label : Label) : (quiet (.node label)).Tidy shelf :=
  tidy_quiet (aside_node label)

theorem tidy_read (f : Graph → Except Error α) : (quiet (.read f)).Tidy shelf :=
  tidy_quiet (aside_read f)

/-! ### Panners -/

theorem tidy_standardMapPlan (id : NodeId) (channels : Nat) :
    (standardMapPlan id channels).Tidy shelf := by
  rw [standardMapPlan]
  split
  · exact .done _
  · exact (tidy_read _).bind fun _ => (tidy_assign _ _ _).bind fun _ =>
      (tidy_assign _ _ _).bind fun _ => tidy_assign _ _ _

theorem tidy_transitionPlan (id : NodeId) (strategy : Strategy) :
    (transitionPlan id strategy).Tidy shelf := by
  have hlast : ∀ (m : Multipanner) (active : NodeId), (do
      let width ← quiet (.read fun g => g.outputCount active)
      act (.arrange m.output (.symmetric width))
      act (.connectInterior active 0 m.output 0)
      act (.adopt id strategy) : Plan Unit).Tidy shelf := fun m active =>
    (tidy_read _).bind fun _ => (tidy_act rfl).bind fun _ => (tidy_act rfl).bind fun _ =>
      tidy_act rfl
  refine (tidy_read _).bind fun m => (tidy_act rfl).bind fun _ => (tidy_act rfl).bind fun _ => ?_
  split
  · exact (tidy_pure _).bind (hlast m)
  · exact (tidy_standardMapPlan _ _).bind fun _ => (tidy_act rfl).bind fun _ =>
      (tidy_pure _).bind (hlast m)

/-! ### Commands -/

theorem aside_label (label : Label) (ring : Option Nat) (id : NodeId) : Aside (do
    Action.bindNode label id
    match ring with
    | some ring => modify fun s : Session => { s with sinks := s.sinks.bind label ring }
    | none => pure ()
    return id : Action NodeId) := by
  refine (aside_bindNode label id).bind fun _ => ?_
  cases ring with
  | some ring => exact (aside_modify fun _ => rfl).bind fun _ => aside_pure id
  | none => exact aside_pure id

/-- The kind is no sink. -/
def NodeKind.Dry (k : NodeKind) : Prop := ∀ sink, k ≠ .ringSink sink

theorem NodeKind.Dry.plain {k : NodeKind} (h : k.Dry) (layout : Layout) :
    (Deed.associate k layout).plain = true := by
  cases k with
  | ringSink sink => exact absurd rfl (h sink)
  | _ => rfl

theorem gives_hrtfKind (data : Dataset) : (onGraph (Graph.hrtfKind data)).Gives NodeKind.Dry := by
  intro s k hk
  rw [run_onGraph, Graph.hrtfKind] at hk
  split at hk
  · cases hk
    intro s hs
    cases hs
  · cases hk

theorem tidy_associatePlan (label : Label) {kind : NodeKind} (ring : Option Nat) (layout : Layout)
    (hkind : kind.Dry) : (associatePlan label kind ring layout).Tidy shelf :=
  (tidy_act (hkind.plain layout)).bind fun id => tidy_quiet (aside_label label ring id)

/-- A ring, and right behind it the sink that writes into it. -/
theorem tidy_sink (capacity channels : Nat) (label : Label) (layout : Layout) :
    (do
      let ring ← act (.addRing capacity)
      associatePlan label (.ringSink (.new ring channels)) (some ring) layout : Plan NodeId).Tidy
        shelf := by
  refine .sink (fun e => .done _) (fun ring => rfl) fun ring r => ?_
  cases r with
  | ok id => exact tidy_quiet (aside_label label (some ring) id)
  | error e => exact .done _

theorem Blueprint.aside_build (b : Blueprint) : b.build.Aside := by
  cases b with
  | samplePlayer samples rate => exact fun _ => rfl
  | hrtfPanner data =>
    exact (aside_dataset data).bind fun d => (aside_onGraph _).bind fun k => aside_pure _
  | ringSink capacity channels => exact (aside_onGraph _).bind fun _ => aside_pure _
  | _ => exact aside_pure _

/-- Of all blueprints, only that of a sink makes one. -/
theorem Blueprint.gives_build {b : Blueprint}
    (hb : ∀ capacity channels, b ≠ .ringSink capacity channels) :
    b.build.Gives fun built => built.1.Dry := by
  cases b with
  | samplePlayer samples rate => exact (gives_any _).bind fun _ _ => gives_pure nofun
  | hrtfPanner data =>
    exact (gives_any _).bind fun d _ => (gives_hrtfKind d).bind fun k hk => gives_pure hk
  | ringSink capacity channels => exact absurd rfl (hb capacity channels)
  | _ => exact gives_pure nofun

theorem tidy_associate (label : Label) (blueprint : Blueprint) (layout : Layout) :
    (do
      let (kind, ring) ← blueprint.plan
      return .node (← associatePlan label kind ring layout) : Plan Answer).Tidy shelf := by
  have hdry : ∀ {b : Blueprint}, (∀ capacity channels, b ≠ .ringSink capacity channels) →
      b.plan = quiet b.build → (do
        let (kind, ring) ← b.plan
        return .node (← associatePlan label kind ring layout) : Plan Answer).Tidy shelf := by
    intro b hb hplan
    rw [hplan]
    exact tidy_quiet_bind b.aside_build (Blueprint.gives_build hb) fun built hbuilt =>
      (tidy_associatePlan label _ layout hbuilt).bind fun _ => tidy_pure _
  cases blueprint with
  | ringSink capacity channels =>
    refine .sink (fun e => .done _) (fun ring => rfl) fun ring r => ?_
    cases r with
    | ok id => exact (tidy_quiet (aside_label label (some ring) id)).bind fun _ => tidy_pure _
    | error e => exact .done _
  | _ => exact hdry nofun rfl

theorem Command.tidy_plan (c : Command) : c.plan.Tidy shelf := by
  cases c with
  | associate label blueprint layout => exact tidy_associate label blueprint layout
  | connect source outputSlot target inputSlot =>
    exact (tidy_node _).bind fun _ => (tidy_node _).bind fun _ =>
      (tidy_act rfl).bind fun _ => tidy_pure _
  | set label p v =>
    exact (tidy_node _).bind fun _ => (tidy_assign _ _ _).bind fun _ => tidy_pure _
  | reset label p =>
    exact (tidy_node _).bind fun _ => (tidy_read _).bind fun _ =>
      (tidy_assign _ _ _).bind fun _ => tidy_pure _
  | edit label change =>
    refine (tidy_node _).bind fun _ => (tidy_read _).bind fun edited =>
      (tidy_act rfl).bind fun _ => ?_
    cases edited.2 <;> exact tidy_pure _
  | standardMap label channels =>
    exact (tidy_node _).bind fun _ => (tidy_standardMapPlan _ _).bind fun _ => tidy_pure _
  | disconnect | remove | process | recomputeMap | markRecompute | observe =>
    exact (tidy_node _).bind fun _ => (tidy_act rfl).bind fun _ => tidy_pure _
  | inspect label p query => exact tidy_quiet ((aside_node label).bind fun _ => aside_read _)
  | ask label query => exact tidy_quiet ((aside_node label).bind fun _ => aside_read _)
  | multipanner label binding =>
    refine tidy_quiet ((aside_node label).bind fun id => (aside_read _).bind fun m => ?_)
    cases binding with
    | some stem =>
      exact ((aside_bindNode _ _).bind fun _ => (aside_bindNode _ _).bind fun _ =>
        (aside_bindNode _ _).bind fun _ => aside_bindNode _ _).bind fun _ => aside_pure _
    | none => exact aside_pure _
  | summary => exact tidy_quiet fun _ => rfl
  | checkConsistency => exact tidy_quiet ((aside_read _).bind fun _ => aside_pure _)

/-! ### Observers -/

theorem tidy_stepsPlan (propagate : Bool) (steps : List Command) :
    (stepsPlan propagate steps).Tidy shelf := by
  induction steps with
  | nil => exact tidy_pure _
  | cons c rest ih =>
    refine c.tidy_plan.attempt.bind fun outcome => ?_
    match outcome with
    | .ok answer => exact (tidy_quiet (aside_write _)).bind fun _ => ih
    | .error (.refused e) =>
      refine (tidy_quiet (aside_write _)).bind fun _ => ?_
      cases propagate with
      | true => exact .done _
      | false => exact ih
    | .error (.aborted a) => exact .done _

theorem Script.aside_announce (script : Script) (event : Event) :
    (script.announce event).Aside := by
  refine aside_get.bind fun s => ?_
  cases event.value with
  | none => exact aside_write _
  | some value =>
    refine (aside_write _).bind fun _ => ?_
    cases script.vetoAbove with
    | none => exact aside_pure ()
    | some bound => exact aside_read _

theorem Observer.tidy_plan (event : Event) (o : Observer) : (o.plan event).Tidy shelf := by
  cases o with
  | markRecompute => exact tidy_act rfl
  | forwardToPanners =>
    exact (tidy_read _).bind fun _ => (tidy_read _).bind fun _ =>
      (tidy_assign _ _ _).bind fun _ => tidy_assign _ _ _
  | forwardToOutput =>
    exact (tidy_read _).bind fun _ => (tidy_read _).bind fun _ => tidy_assign _ _ _
  | admitStrategy =>
    refine tidy_quiet ?_
    rw [react]
    split
    · exact aside_read _
    · exact aside_pure ()
  | applyStrategy => exact (tidy_read _).bind fun _ => tidy_transitionPlan _ _
  | script s => exact (tidy_quiet (s.aside_announce event)).bind fun _ => tidy_stepsPlan _ _

/-! ### Steps -/

theorem tidy_transactPlan (commands : List Command) (answers : List Answer) :
    (transactPlan commands answers).Tidy shelf := by
  induction commands generalizing answers with
  | nil => exact tidy_pure _
  | cons c rest ih =>
    refine c.tidy_plan.attempt.bind fun outcome => ?_
    match outcome with
    | .ok a => exact ih _
    | .error (.refused e) => exact tidy_pure _
    | .error (.aborted a) => exact .done _

theorem tidy_pullsPlan (id : NodeId) (times : Nat) : (pullsPlan id times).Tidy shelf := by
  induction times with
  | zero => exact tidy_pure _
  | succ times ih => exact (tidy_act rfl).bind fun _ => ih

theorem Creation.tidy_plan (label : Label) (creation : Creation) :
    (creation.plan label).Tidy shelf := by
  cases creation with
  | samplePlayer samples => exact .look fun s _ => tidy_associatePlan _ _ _ nofun
  | amplitudePanner =>
    exact (tidy_act rfl).bind fun _ => (tidy_act rfl).bind fun _ =>
      (tidy_quiet (aside_bindNode _ _)).bind fun _ => tidy_pure _
  | hrtfPanner data =>
    refine (tidy_quiet (aside_dataset data)).bind fun d =>
      tidy_quiet_bind (aside_onGraph _) (gives_hrtfKind d) fun kind hkind => ?_
    exact (tidy_act (hkind.plain _)).bind fun _ => (tidy_act rfl).bind fun _ =>
      (tidy_act rfl).bind fun _ => (tidy_quiet (aside_bindNode _ _)).bind fun _ => tidy_pure _
  | multipanner data =>
    exact (tidy_quiet (aside_dataset data)).bind fun _ => (tidy_act rfl).bind fun _ =>
      (tidy_transitionPlan _ _).bind fun _ => (tidy_quiet (aside_bindNode _ _)).bind fun _ =>
        tidy_pure _
  | ringSink channels blocks => exact tidy_sink _ _ label _
  | sine => exact tidy_associatePlan label none .source nofun
  | gain channels => exact tidy_associatePlan label none (.symmetric channels) nofun

/-- The step takes faults or samples out. -/
def Step.takesOut : Step → Bool
  | takeFaults | drain .. => true
  | _ => false

/-- The step is about the shelf. -/
def Step.shelves : Step → Bool
  | writeFile .. | load .. => true
  | _ => false

/-- **All other steps are tidy.** -/
theorem Step.tidy_plan {step : Step} (htakes : step.takesOut = false)
    (hshelves : step.shelves = false) : step.plan.Tidy shelf := by
  cases step with
  | command c => exact c.tidy_plan.bind fun _ => tidy_pure _
  | create label creation => exact (creation.tidy_plan label).bind fun _ => tidy_pure _
  | foreign label i =>
    exact tidy_quiet ((aside_bindNode _ _).bind fun _ => aside_pure _)
  | render label out probe =>
    exact (tidy_quiet (aside_settle _)).bind fun _ => (tidy_node _).bind fun _ =>
      (tidy_pullsPlan _ _).bind fun _ => (tidy_read _).bind fun _ => tidy_pure _
  | process label times =>
    exact (tidy_node _).bind fun _ => (tidy_pullsPlan _ _).bind fun _ => tidy_pure _
  | transaction commands => exact tidy_transactPlan commands []
  | readLog => exact tidy_quiet fun _ => rfl
  | rate => exact tidy_quiet fun _ => rfl
  | takeFaults | drain => cases htakes
  | writeFile | load => cases hshelves

end Tidy

/-! ## Tales -/

/-- The tale of an action is orderly, and the action leaves the shelf alone. -/
structure Conducted {α : Type} (a : Action α) (tale : Session → Tale) : Prop where
  told : ToldBy a tale
  orderly : ∀ s, Orderly s.graph (tale s).happenings
  aside : a.Aside

section Conducted

variable {α : Type}

theorem addRing_cases (capacity : Nat) (g : Graph) :
    Memory.fits capacity Memory.sampleSize = true ∧
      ((Deed.addRing capacity).run.run g).1 = .ok g.rings.length ∨
    ∃ e, (Deed.addRing capacity).run.run g = (.error e, g) := by
  rw [Deed.run, run_addRing]
  split
  · next hfits => exact .inl ⟨hfits, rfl⟩
  · exact .inr ⟨_, rfl⟩

theorem Plan.Tidy.conduct {set : Setter} {tell : Teller}
    (hset : ∀ id p v, Conducted (set id p v) (tell id p v)) {shelf : Library × Files}
    {plan : Plan α} (h : plan.Tidy shelf) {s : Session} (hs : s.shelf = shelf) :
    Orderly s.graph (plan.tale set tell s).happenings ∧ ((plan.run set).run s).2.shelf = shelf := by
  induction h generalizing s with
  | done r =>
    rw [Plan.run, run_settle]
    exact ⟨.nil _, hs⟩
  | look _ ih => exact ih s hs hs
  | @note f next hf _ ih => exact ih (s := { f s with graph := s.graph }) (hf s)
  | @deed β d next hd _ ih =>
    obtain ⟨horderly, hshelf⟩ :=
      ih (d.run.run s.graph).1 (s := { s with graph := (d.run.run s.graph).2 }) hs
    exact ⟨.plain hd horderly, hshelf⟩
  | @sink capacity channels layout next rest _ hring _ iherror ih =>
    let r := (Deed.addRing capacity).run.run s.graph
    change Orderly s.graph (.deed (.addRing capacity)
        :: ((next r.1).tale set tell { s with graph := r.2 }).happenings) ∧
      (((next r.1).run set).run { s with graph := r.2 }).2.shelf = shelf
    rcases addRing_cases capacity s.graph with ⟨hfits, hr⟩ | ⟨e, hr⟩
    · rw [show r.1 = _ from hr, hring]
      let sink := NodeKind.ringSink (.new s.graph.rings.length channels)
      let made := (Deed.associate sink layout).run.run r.2
      obtain ⟨horderly, hshelf⟩ :=
        ih s.graph.rings.length made.1 (s := { s with graph := made.2 }) hs
      exact ⟨.sink hfits horderly, hshelf⟩
    · rw [show r = _ from hr]
      obtain ⟨horderly, hshelf⟩ := iherror e hs
      refine ⟨.plain (k := .deed (.addRing capacity)) rfl ?_, hshelf⟩
      change Orderly r.2 _
      rw [show r = _ from hr]
      exact horderly
  | @set id p v next _ ih =>
    have hfirst := hset id p v
    obtain ⟨horderly, hshelf⟩ := ih ((set id p v).run s).1 ((hfirst.aside s).trans hs)
    rw [hfirst.told s] at horderly
    exact ⟨(hfirst.orderly s).append horderly, hshelf⟩

theorem conducted_plan {set : Setter} {tell : Teller}
    (hset : ∀ id p v, Conducted (set id p v) (tell id p v)) {plan : Plan α}
    (h : ∀ shelf, plan.Tidy shelf) : Conducted (plan.run set) (plan.tale set tell) where
  told := toldBy_plan (fun id p v => (hset id p v).told) plan
  orderly s := ((h s.shelf).conduct hset rfl).1
  aside s := ((h s.shelf).conduct hset rfl).2

theorem conducted_rounds {run : Observer → Action Unit}
    {tell : List Observer → Observer → List Observer → Session → Tale}
    (hrun : ∀ through o waiting, Conducted (run o) (tell through o waiting))
    (through waiting : List Observer) :
    Conducted (waiting.forM run) (roundsTale run tell through waiting) := by
  refine ⟨toldBy_rounds (fun through o waiting => (hrun through o waiting).told) through waiting,
    fun s => ?_, ?_⟩
  · induction waiting generalizing through s with
    | nil => exact .nil _
    | cons o rest ih =>
      rw [roundsTale]
      refine ((hrun through o rest).orderly s).append ?_
      rw [← (hrun through o rest).told s]
      rcases (run o).run s with ⟨_ | _, s'⟩
      · exact .nil _
      · exact ih _ s'
  · induction waiting with
    | nil => exact aside_pure ()
    | cons o rest ih => exact (hrun through o rest).aside.bind fun _ => ih

theorem conducted_notify {run : Event → Observer → Action Unit}
    {tell : Frame → Event → Observer → Session → Tale}
    (hrun : ∀ frame event o, Conducted (run event o) (tell frame event o)) (phase : Phase)
    (event : Event) : Conducted (notify run phase event) (notifyTale run tell phase event) := by
  have hrounds := conducted_rounds (fun through o waiting =>
    hrun ⟨phase, event.node, event.property, through, o, waiting⟩ event o) []
  refine ⟨toldBy_notify (fun frame event o => (hrun frame event o).told) phase event,
    fun s => ?_, fun s => ?_⟩
  · refine Orderly.append (Orderly.append (orderly_single rfl) ?_) (orderly_single rfl)
    exact (hrounds _).orderly { s with graph := _ }
  · rcases h : s.graph.takeObservers phase event.node event.property with ⟨taken, g⟩
    rw [run_notify_eq run phase event s h]
    exact (hrounds taken).aside { s with graph := g }

theorem conducted_setWith {run : Event → Observer → Action Unit}
    {tell : Frame → Event → Observer → Session → Tale}
    (hrun : ∀ frame event o, Conducted (run event o) (tell frame event o)) (stack : List Frame)
    (id : NodeId) (p : PropertyId) (v : PropertyValue) :
    Conducted (setWith run id p v) (setTale run tell stack id p v) := by
  have hbefore := conducted_notify hrun .before ⟨id, p, some v⟩
  have hafter := conducted_notify hrun .after ⟨id, p, none⟩
  refine ⟨toldBy_setWith (fun frame event o => (hrun frame event o).told) stack id p v,
    fun s => ?_, ?_⟩
  · rw [setTale]
    split
    · exact .nil _
    · refine (hbefore.orderly s).append ?_
      rw [← hbefore.told s]
      split
      · exact .nil _
      · next s₁ heq =>
        rw [heq]
        split
        · exact .nil _
        · next g hstore =>
          obtain ⟨_, -, hg⟩ := bind_eq_ok.mp hstore
          obtain rfl := pure_eq_ok.mp hg
          exact .plain (k := .stored id p v) rfl (hafter.orderly { s₁ with graph := _ })
  · exact (aside_read _).bind fun _ => hbefore.aside.bind fun _ =>
      Aside.bind (aside_onGraph _) fun _ => hafter.aside

theorem conducted_change (depth : Nat) (stack : List Frame) (id : NodeId) (p : PropertyId)
    (v : PropertyValue) : Conducted (change depth id p v) (changeTale depth stack id p v) := by
  induction depth generalizing stack id p v with
  | zero => exact ⟨fun _ => rfl, fun _ => .nil _, aside_throw _⟩
  | succ depth ih =>
    refine conducted_setWith (fun frame event o => ?_) stack id p v
    rw [← Observer.run_plan]
    exact conducted_plan (ih (frame :: stack)) fun _ => o.tidy_plan event

/-- **Whatever is set, and whatever observers do about it, the tale is orderly.** -/
theorem conducted_set (id : NodeId) (p : PropertyId) (v : PropertyValue) :
    Conducted (Session.set id p v) (Session.setTale id p v) where
  told := toldBy_set id p v
  orderly s := (conducted_change _ [] id p v).orderly s
  aside s := by
    rw [Session.set, run_bind_ok (run_get s)]
    exact (conducted_change _ [] id p v).aside s

/-- **A step that takes nothing out is orderly.** -/
theorem Step.orderly {step : Step} (h : step.takesOut = false) (s : Session) :
    Orderly s.graph (step.tale s).happenings := by
  cases hshelves : step.shelves with
  | false => exact ((tidy_plan h hshelves).conduct conducted_set rfl).1
  | true =>
    match step, hshelves with
    | .writeFile .., _ => exact .nil _
    | .load .., _ => exact .nil _

/-- **A step that is not about the shelf leaves it alone.** -/
theorem Step.aside {step : Step} (h : step.shelves = false) : step.run.Aside := by
  cases htakes : step.takesOut with
  | false =>
    intro s
    rw [← step.run_plan]
    exact ((tidy_plan htakes h).conduct conducted_set rfl).2
  | true =>
    match step, htakes with
    | .takeFaults, _ => exact fun _ => rfl
    | .drain label limit probe, _ => exact (aside_named _ _).bind fun _ => fun _ => rfl

end Conducted

/-! ## Steps that take something out -/

theorem tale_takeFaults (s : Session) :
    (Step.takeFaults.tale s).happenings = [.deed .clearFaults] := rfl

/-- The ring of a label, and what is asked for. -/
def Session.drained (s : Session) (number : Nat) (limit : Option Nat) : List Float32 × Ring :=
  let ring := (s.graph.rings[number]?).getD (Ring.new 0)
  ring.pop (limit.getD ring.queued.length)

/-- Taking samples out changes one ring, and nothing if the label names none. -/
theorem tale_drain (s : Session) (label : Label) (limit : Option Nat) (probe : Probe) :
    ((Step.drain label limit probe).tale s).happenings = match s.sinks.get? label with
      | some number => [.deed (.refill number (s.drained number limit).2)]
      | none => [] := by
  let named := (Action.named Session.sinks label).run s
  change (((Plan.done named.1).bind _).tale Session.set Session.setTale
    { named.2 with graph := s.graph }).happenings = _
  cases h : s.sinks.get? label with
  | some number =>
    rw [show named = (.ok number, s) from run_named h]
    rfl
  | none =>
    have hrun : named = (.error (.aborted (.unbound label)), s) := by
      change (Action.named Session.sinks label).run s = _
      rw [Action.named, run_bind_ok (run_get s), h]
      rfl
    rw [hrun]
    rfl

end SpatialAudio
