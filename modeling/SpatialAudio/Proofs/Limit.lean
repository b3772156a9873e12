import SpatialAudio.Proofs.Nesting
import SpatialAudio.Proofs.Setting

/-!
# Proofs/Limit — what the limit on nested changes means

Without observers that register observers the limit is not reached (`Session.set_returns`).  With
them it may be, and no other limit would do: two observers can supply each other and go on for ever
(`change_breeding`), until a call stack, however deep, is used up.

What the limit does is to end such a call, and nothing else.  Whatever observers there are, a call
that is not aborted for nesting is what it is without a limit (`Session.set_eq_of_avoids`).
-/

namespace SpatialAudio

open SpatialAudio.Graph

/-! ## A call that is not given up -/

/-- Where `a` is not aborted for nesting, `b` does the same. -/
def Prolongs {α : Type} (b a : Action α) : Prop :=
  ∀ s, Avoids (.aborted .nesting) (a.run s).1 → b.run s = a.run s

section Prolongs

variable {α β : Type} {set set' : Setter}

theorem prolongs_refl (a : Action α) : Prolongs a a := fun _ _ => rfl

/-- Nothing comes after an abort. -/
theorem Prolongs.bind {a b : Action α} {f f' : α → Action β} (h : Prolongs b a)
    (hf : ∀ x, Prolongs (f' x) (f x)) : Prolongs (b >>= f') (a >>= f) := by
  intro s hs
  rw [run_bind] at hs
  have hab : b.run s = a.run s := by
    refine h s fun herr => ?_
    rcases hr : a.run s with ⟨r, s'⟩
    rw [hr] at hs herr
    cases herr
    exact hs rfl
  rw [run_bind, run_bind, hab]
  rcases hr : a.run s with ⟨e | x, s'⟩
  · rfl
  · rw [hr] at hs
    exact hf x s' hs

/-- The outcome of an action may be used in any way that hands an abort on. -/
theorem Prolongs.attempt_bind {a b : Action α} {f f' : Except Failure α → Action β}
    (h : Prolongs b a) (hf : ∀ r, Prolongs (f' r) (f r))
    (habort : ∀ s, ((f (.error (.aborted .nesting))).run s).1 = .error (.aborted .nesting)) :
    Prolongs (b.attempt >>= f') (a.attempt >>= f) := by
  intro s hs
  rw [run_bind_ok (run_attempt a s)] at hs
  have hab : b.run s = a.run s := h s fun herr => hs (herr ▸ habort _)
  rw [run_bind_ok (run_attempt b s), run_bind_ok (run_attempt a s), hab]
  exact hf _ _ hs

theorem prolongs_forM {f f' : β → Action Unit} (h : ∀ b, Prolongs (f' b) (f b)) (bs : List β) :
    Prolongs (bs.forM f') (bs.forM f) := by
  induction bs with
  | nil => exact prolongs_refl _
  | cons b bs ih => exact (h b).bind fun _ => ih

variable (hset : ∀ id p v, Prolongs (set' id p v) (set id p v))
include hset

theorem prolongs_configureStandardMap (id : NodeId) (channels : Nat) :
    Prolongs (configureStandardMap set' id channels) (configureStandardMap set id channels) := by
  rw [configureStandardMap, configureStandardMap]
  cases ChannelMap.standard? channels with
  | none => exact prolongs_refl _
  | some angles =>
    exact (prolongs_refl _).bind fun _ => (hset _ _ _).bind fun _ => (hset _ _ _).bind fun _ =>
      hset _ _ _

theorem prolongs_transition (id : NodeId) (strategy : Strategy) :
    Prolongs (Multipanner.transition set' id strategy)
      (Multipanner.transition set id strategy) := by
  refine (prolongs_refl _).bind fun m => (prolongs_refl _).bind fun _ =>
    (prolongs_refl _).bind fun _ => ?_
  cases strategy with
  | hrtf => exact prolongs_refl _
  | _ => exact (prolongs_configureStandardMap hset _ _).bind fun _ => prolongs_refl _

/-- Three commands set properties. -/
theorem prolongs_perform (c : Command) : Prolongs (perform set' c) (perform set c) := by
  cases c with
  | set label p v =>
    exact (prolongs_refl _).bind fun _ => (hset _ _ _).bind fun _ => prolongs_refl _
  | reset label p =>
    exact (prolongs_refl _).bind fun _ => (prolongs_refl _).bind fun _ =>
      (hset _ _ _).bind fun _ => prolongs_refl _
  | standardMap label channels =>
    exact (prolongs_refl _).bind fun _ =>
      (prolongs_configureStandardMap hset _ _).bind fun _ => prolongs_refl _
  | _ => exact prolongs_refl _

theorem prolongs_runSteps (propagate : Bool) (steps : List Command) :
    Prolongs (runSteps set' propagate steps) (runSteps set propagate steps) := by
  induction steps with
  | nil => exact prolongs_refl _
  | cons c rest ih =>
    refine (prolongs_perform hset c).attempt_bind (fun outcome => ?_) fun _ => rfl
    match outcome with
    | .ok answer => exact (prolongs_refl _).bind fun _ => ih
    | .error (.refused e) =>
      refine (prolongs_refl _).bind fun _ => ?_
      cases propagate with
      | true => exact prolongs_refl _
      | false => exact ih
    | .error (.aborted a) => exact prolongs_refl _

theorem prolongs_react (event : Event) (o : Observer) :
    Prolongs (react set' event o) (react set event o) := by
  cases o with
  | markRecompute | admitStrategy => exact prolongs_refl _
  | forwardToPanners =>
    exact (prolongs_refl _).bind fun _ => (prolongs_refl _).bind fun _ =>
      (hset _ _ _).bind fun _ => hset _ _ _
  | forwardToOutput =>
    exact (prolongs_refl _).bind fun _ => (prolongs_refl _).bind fun _ => hset _ _ _
  | applyStrategy => exact (prolongs_refl _).bind fun _ => prolongs_transition hset _ _
  | script s =>
    rw [react, react, Script.run_eq, Script.run_eq]
    exact (prolongs_refl _).bind fun _ => prolongs_runSteps hset _ _

omit hset

theorem prolongs_notify {run run' : Event → Observer → Action Unit}
    (h : ∀ event o, Prolongs (run' event o) (run event o)) (phase : Phase) (event : Event) :
    Prolongs (notify run' phase event) (notify run phase event) := by
  refine (prolongs_refl _).bind fun s => (prolongs_refl _).bind fun _ =>
    (prolongs_forM (h event) _).attempt_bind (fun _ => prolongs_refl _) fun _ => rfl

theorem prolongs_setWith {run run' : Event → Observer → Action Unit}
    (h : ∀ event o, Prolongs (run' event o) (run event o)) (id : NodeId) (p : PropertyId)
    (v : PropertyValue) : Prolongs (setWith run' id p v) (setWith run id p v) :=
  (prolongs_refl _).bind fun _ => (prolongs_notify h _ _).bind fun _ =>
    (prolongs_refl _).bind fun _ => prolongs_notify h _ _

end Prolongs

/-- A change with a limit is prolonged by every change that goes on beyond it. -/
theorem prolongs_changeOr (beyond : Setter) (depth : Nat) (id : NodeId) (p : PropertyId)
    (v : PropertyValue) : Prolongs (changeOr beyond depth id p v) (change depth id p v) := by
  induction depth generalizing id p v with
  | zero => exact fun s hs => absurd rfl hs
  | succ depth ih => exact prolongs_setWith (prolongs_react ih) id p v

/-- **The limit is felt only by a call that it ends.**  In every session, with whatever observers,
setting a property is aborted for nesting or it is the same whatever would be done beyond the
limit. -/
theorem Session.set_eq_of_avoids {s : Session} {id : NodeId} {p : PropertyId} {v : PropertyValue}
    (h : ((Session.set id p v).run s).1 ≠ .error (.aborted .nesting)) (beyond : Setter) :
    (changeOr beyond (s.graph.observerCount + 1 + spareDepth) id p v).run s
      = (Session.set id p v).run s := by
  have hset : (Session.set id p v).run s
      = (change (s.graph.observerCount + 1 + spareDepth) id p v).run s := by
    rw [Session.set, run_bind_ok (run_get s)]
  rw [hset] at h ⊢
  exact prolongs_changeOr beyond _ id p v s h

/-! ## Calls without end -/

/-- What a bred observer does: it sets two properties. -/
def bredSteps : List Command := [.set "a" .suspended (.int 0), .set "b" .suspended (.int 0)]

/-- Observes the second of these properties. -/
def bred : Observer := .script ⟨"bred", none, true, bredSteps⟩

/-- Observes the first, and registers an observer of the second. -/
def breeder : Observer :=
  .script ⟨"breeder", none, true, [.observe .after "b" .suspended "bred" none true bredSteps]⟩

/-- Two gains without channels, with a breeder and what it bred when it was first called. -/
def breeding : Session :=
  let s := ((Session.new 44100 64).step (.create "a" (.gain 0))).2
  let s := (s.step (.create "b" (.gain 0))).2
  let s := (s.step (.command (.set "b" .suspended (.int 0)))).2
  let s := (s.step (.command (.observe .after "a" .suspended "breeder" none true
    [.observe .after "b" .suspended "bred" none true bredSteps]))).2
  (s.step (.command (.set "a" .suspended (.int 0)))).2

/-- A flag that was set to what it is, with observers of that. -/
def observedFlag (os : List Observer) : Property :=
  { Property.bool "suspended" false with modified := true, after := os }

/-- A gain without channels that has such a flag. -/
def observedGain (os : List Observer) : Node where
  kind := .gain
  properties := Properties.standard.modify .suspended fun _ => observedFlag os
  layout := .symmetric 0
  inputs := []
  outputs := []
  owner := none
  interior := none

/-- Two such gains. -/
def twoGains (as bs : List Observer) (log : List LogEntry) : Session :=
  { Session.new 44100 64 with
    graph := { Graph.new 44100 64 with
      slots := [⟨0, some (observedGain as)⟩, ⟨0, some (observedGain bs)⟩] }
    nodes := ⟨[("a", ⟨0, 0⟩), ("b", ⟨1, 0⟩)]⟩
    log }

theorem breeding_eq : breeding = twoGains [breeder] [bred] breeding.log := rfl

/-! ### Steps of a script -/

section Steps

variable {set : Setter} {propagate : Bool} {c : Command} {rest : List Command} {s t : Session}

theorem runSteps_answered {answer : Answer} (h : (perform set c).run s = (.ok answer, t)) :
    (runSteps set propagate (c :: rest)).run s
      = (runSteps set propagate rest).run { t with log := t.log ++ [.nested answer] } := by
  rw [runSteps, run_bind_ok (run_attempt _ _), h]
  rfl

theorem runSteps_aborted {a : Abort} (h : (perform set c).run s = (.error (.aborted a), t)) :
    (runSteps set propagate (c :: rest)).run s = (.error (.aborted a), t) := by
  rw [runSteps, run_bind_ok (run_attempt _ _), h]
  rfl

end Steps

/-! ### The two gains -/

/-- Setting the flag of such a gain is what its observers do. -/
theorem run_setFlag {s t : Session} {id : NodeId} {os : List Observer}
    {run : Event → Observer → Action Unit} {r : Except Failure Unit}
    (hn : s.graph.node id = .ok (observedGain os))
    (hrun : (os.forM (run ⟨id, .suspended, none⟩)).run
      { s with graph := s.graph.underWay id .suspended (.int 0) } = (r, t)) :
    (setWith run id .suspended (.int 0)).run s
      = (r, { t with graph := t.graph.restoreObservers .after id .suspended os }) := by
  have hx : (observedGain os).properties.get? .suspended = some (observedFlag os) := rfl
  have hkeys : (observedGain os).properties.keys = [.suspended, .mul, .add] := rfl
  have hnd : (observedGain os).properties.keys.Nodup := by
    rw [hkeys]
    decide
  exact run_setWith hn hx rfl (run_notify_nil hn hnd hx .before rfl _) hrun

/-- The breeder breeds. -/
theorem exists_run_breeder (depth : Nat) (log : List LogEntry) : ∃ log',
    (change (depth + 1) ⟨0, 0⟩ .suspended (.int 0)).run (twoGains [breeder] [] log)
      = (.ok (), twoGains [breeder] [bred] log') := by
  have hn : (twoGains [breeder] [] log).graph.node ⟨0, 0⟩ = .ok (observedGain [breeder]) := rfl
  have hrun : ([breeder].forM (react (change depth) ⟨⟨0, 0⟩, .suspended, none⟩)).run
      (twoGains [] [] log) = (.ok (), twoGains [] [bred]
        (log ++ [.after "breeder" (.ok (.int 0))] ++ [.nested .done])) := by
    rw [forM_singleton]
    rfl
  exact ⟨_, run_setFlag hn hrun⟩

/-- The first step of a bred observer brings another, and the second calls it. -/
theorem exists_run_bredSteps {depth : Nat} (h : ∀ log, ∃ bs log',
    (change depth ⟨1, 0⟩ .suspended (.int 0)).run (twoGains [breeder] [bred] log)
      = (.error (.aborted .nesting), twoGains [breeder] bs log')) (log : List LogEntry) :
    ∃ bs log', (runSteps (change depth) true bredSteps).run (twoGains [breeder] [] log)
      = (.error (.aborted .nesting), twoGains [breeder] bs log') := by
  cases depth with
  | zero => exact ⟨_, _, rfl⟩
  | succ depth =>
    obtain ⟨log₁, hfirst⟩ := exists_run_breeder depth log
    obtain ⟨bs, log₂, hsecond⟩ := h (log₁ ++ [.nested .done])
    have hset : (perform (change (depth + 1)) (.set "a" .suspended (.int 0))).run
        (twoGains [breeder] [] log) = (.ok .done, twoGains [breeder] [bred] log₁) := by
      have hnode : (Action.node "a").run (twoGains [breeder] [] log)
          = (.ok ⟨0, 0⟩, twoGains [breeder] [] log) := rfl
      rw [perform, run_bind_ok hnode, run_bind_ok hfirst]
      rfl
    have hset' : (perform (change (depth + 1)) (.set "b" .suspended (.int 0))).run
        (twoGains [breeder] [bred] (log₁ ++ [.nested .done]))
          = (.error (.aborted .nesting), twoGains [breeder] bs log₂) := by
      have hnode : (Action.node "b").run (twoGains [breeder] [bred] (log₁ ++ [.nested .done]))
          = (.ok ⟨1, 0⟩, twoGains [breeder] [bred] (log₁ ++ [.nested .done])) := rfl
      rw [perform, run_bind_ok hnode, run_bind_error hsecond]
    exact ⟨bs, log₂, (runSteps_answered hset).trans (runSteps_aborted hset')⟩

/-- The induction is on the limit, over every log: when a bred observer is called a step deeper, all
but the log is as it was. -/
theorem exists_run_bred (depth : Nat) (log : List LogEntry) : ∃ bs log',
    (change depth ⟨1, 0⟩ .suspended (.int 0)).run (twoGains [breeder] [bred] log)
      = (.error (.aborted .nesting), twoGains [breeder] bs log') := by
  induction depth generalizing log with
  | zero => exact ⟨_, _, rfl⟩
  | succ depth ih =>
    have hannounce : (Script.announce ⟨"bred", none, true, bredSteps⟩
        ⟨⟨1, 0⟩, .suspended, none⟩).run (twoGains [breeder] [] log)
          = (.ok (), twoGains [breeder] [] (log ++ [.after "bred" (.ok (.int 0))])) := rfl
    obtain ⟨bs, log', hsteps⟩ := exists_run_bredSteps ih (log ++ [.after "bred" (.ok (.int 0))])
    have hn : (twoGains [breeder] [bred] log).graph.node ⟨1, 0⟩ = .ok (observedGain [bred]) := rfl
    have hrun : ([bred].forM (react (change depth) ⟨⟨1, 0⟩, .suspended, none⟩)).run
        (twoGains [breeder] [] log) = (.error (.aborted .nesting), twoGains [breeder] bs log') := by
      rw [forM_singleton, bred, react, Script.run_eq, run_bind_ok hannounce, hsteps]
    exact ⟨_, _, run_setFlag hn hrun⟩

/-- **No limit is enough for every session.**  A bred observer is taken out while it runs, but it has
the breeder register another one and calls that.  So however deep changes may be nested, the call is
given up; without a limit it would have no end. -/
theorem change_breeding : breeding.Reachable ∧ ∀ depth,
    ((change depth ⟨1, 0⟩ .suspended (.int 0)).run breeding).1 = .error (.aborted .nesting) := by
  refine ⟨.step (.step (.step (.step (.step (.new 44100 64) _) _) _) _) _, fun depth => ?_⟩
  obtain ⟨bs, log', h⟩ := exists_run_bred depth breeding.log
  rw [breeding_eq, h]

end SpatialAudio
