import SpatialAudio.Proofs.Playback
import SpatialAudio.Session.Change

/-!
# Proofs/Setting — setting properties that few observe

Of a property only its value and its mark change while nodes are used; the rest is its **frame**.
A set of properties whose identifiers are listed once is determined by what `get?` shows, so taking
observers out and putting them back leaves the graph as it was (`run_notify_nil`), and setting a
property that nobody observes does nothing but store the value (`run_setWith_plain`).
-/

namespace SpatialAudio

/-! ## Properties -/

namespace Property

variable (x : Property) (phase : Phase)

@[simp] theorem observers_setObservers (os : List Observer) :
    (x.setObservers phase os).observers phase = os := by
  cases phase <;> rfl

@[simp] theorem setObservers_setObservers (os os' : List Observer) :
    (x.setObservers phase os).setObservers phase os' = x.setObservers phase os' := by
  cases phase <;> rfl

@[simp] theorem setObservers_observers : x.setObservers phase (x.observers phase) = x := by
  cases phase <;> rfl

/-- All of a property but its value and its mark. -/
def frame : String × PropertyValue × ValueRange × List Observer × List Observer :=
  (x.name, x.default, x.range, x.before, x.after)

variable {x}

theorem range_of_frame {y : Property} (h : x.frame = y.frame) : x.range = y.range :=
  congrArg (·.2.2.1) h

theorem observers_of_frame {y : Property} (h : x.frame = y.frame) (phase : Phase) :
    x.observers phase = y.observers phase := by
  cases phase with
  | before => exact congrArg (·.2.2.2.1) h
  | after => exact congrArg (·.2.2.2.2) h

/-- A property whose value is stored while the observers of the phase after are taken out. -/
def storing (x : Property) (v : PropertyValue) : Property := (x.store v).setObservers .after []

theorem setObservers_storing (x : Property) (v : PropertyValue) :
    (x.storing v).setObservers .after (x.after ++ (x.storing v).observers .after) = x.store v := by
  simp only [storing, observers_setObservers, setObservers_setObservers, List.append_nil]
  exact (x.store v).setObservers_observers .after

/-- Whether a value is valid depends on the range alone. -/
theorem validate_congr {y : Property} (h : x.range = y.range) {p : PropertyId} {v : PropertyValue}
    (hv : x.validate p v = .ok ()) : y.validate p v = .ok () := by
  unfold validate at hv ⊢
  rw [h] at hv
  revert hv
  cases y.range <;> cases v <;> exact fun hv => by first | exact hv | cases hv

end Property

namespace Properties

variable {ps qs : Properties} {p q : PropertyId} {x : Property} {f f' : Property → Property}

/-- The identifiers of the properties. -/
def keys (ps : Properties) : List PropertyId := ps.entries.map (·.1)

/-- All of the properties but their values and marks. -/
def frame (ps : Properties) :
    List (PropertyId × String × PropertyValue × ValueRange × List Observer × List Observer) :=
  ps.entries.map fun e => (e.1, e.2.frame)

theorem keys_eq_of_frame (h : ps.frame = qs.frame) : ps.keys = qs.keys := by
  have hmap : ∀ rs : Properties, rs.keys = rs.frame.map (·.1) := by
    intro rs
    rw [keys, frame, List.map_map]
    rfl
  rw [hmap, hmap, h]

theorem map_frame_get? (ps : Properties) (p : PropertyId) :
    (ps.get? p).map Property.frame = (ps.frame.find? fun e => e.1 = p).map (·.2) := by
  obtain ⟨entries⟩ := ps
  simp only [get?, frame]
  induction entries with
  | nil => rfl
  | cons e entries ih =>
    by_cases hp : e.1 = p
    · simp [hp]
    · simp [hp, ih]

/-- Properties of one frame have the same properties, each of the same frame. -/
theorem exists_of_frame (h : ps.frame = qs.frame) {y : Property} (hy : qs.get? p = some y) :
    ∃ x, ps.get? p = some x ∧ x.frame = y.frame := by
  have hmap := map_frame_get? ps p
  rw [h, ← map_frame_get?, hy] at hmap
  exact Option.map_eq_some_iff.mp hmap

theorem frame_modify (hf : ∀ x : Property, (f x).frame = x.frame) :
    (ps.modify p f).frame = ps.frame := by
  rw [modify, frame, frame, List.map_map]
  refine List.map_congr_left fun e _ => ?_
  simp only [Function.comp_apply]
  split
  · rw [hf]
  · rfl

theorem frame_store (ps : Properties) (p : PropertyId) (v : PropertyValue) :
    (ps.modify p (·.store v)).frame = ps.frame :=
  frame_modify fun _ => rfl

theorem frame_clearModified (ps : Properties) : ps.clearModified.frame = ps.frame := by
  rw [clearModified, frame, frame, List.map_map]
  rfl

theorem frame_of_clearModified (h : ps.clearModified = qs.clearModified) : ps.frame = qs.frame := by
  rw [← frame_clearModified, h, frame_clearModified]

/-- The value of a property, if there is one. -/
def value? (ps : Properties) (p : PropertyId) : Option PropertyValue :=
  (ps.get? p).map Property.value

theorem value?_clearModified (ps : Properties) (p : PropertyId) :
    ps.clearModified.value? p = ps.value? p := by
  obtain ⟨entries⟩ := ps
  simp only [value?, get?, clearModified]
  induction entries with
  | nil => rfl
  | cons e entries ih =>
    by_cases hp : e.1 = p
    · simp [hp]
    · simpa [hp] using ih

theorem value?_of_clearModified (h : ps.clearModified = qs.clearModified) (p : PropertyId) :
    ps.value? p = qs.value? p := by
  rw [← value?_clearModified, h, value?_clearModified]

theorem get?_eq_of_mem (hnd : ps.keys.Nodup) {e : PropertyId × Property} (he : e ∈ ps.entries) :
    ps.get? e.1 = some e.2 := by
  obtain ⟨entries⟩ := ps
  induction entries with
  | nil => exact absurd he List.not_mem_nil
  | cons d entries ih =>
    obtain ⟨hd, hnd⟩ := List.nodup_cons.mp hnd
    rcases List.mem_cons.mp he with rfl | he
    · simp [get?]
    · have hne : d.1 ≠ e.1 := fun hde => hd (List.mem_map.mpr ⟨e, he, hde.symm⟩)
      have htail := ih hnd he
      simp only [get?] at htail ⊢
      rw [List.find?_cons_of_neg (by simpa using hne), htail]

/-- Only what is done to the property itself counts. -/
theorem modify_congr (hnd : ps.keys.Nodup) (hx : ps.get? p = some x) (hf : f x = f' x) :
    ps.modify p f = ps.modify p f' := by
  rw [modify, modify]
  congr 1
  refine List.map_congr_left fun e he => ?_
  split
  · next hp =>
    have hget := get?_eq_of_mem hnd he
    rw [hp, hx] at hget
    rw [← Option.some.inj hget, hf]
  · rfl

theorem modify_id (ps : Properties) (p : PropertyId) : ps.modify p (fun x => x) = ps := by
  obtain ⟨entries⟩ := ps
  simp [modify]

theorem modify_eq_self (hnd : ps.keys.Nodup) (hx : ps.get? p = some x) (hf : f x = x) :
    ps.modify p f = ps :=
  (modify_congr hnd hx hf).trans (modify_id ps p)

theorem modify_modify (ps : Properties) (p : PropertyId) (f f' : Property → Property) :
    (ps.modify p f).modify p f' = ps.modify p fun x => f' (f x) := by
  obtain ⟨entries⟩ := ps
  simp only [modify, List.map_map]
  congr 1
  refine List.map_congr_left fun e _ => ?_
  by_cases hp : e.1 = p <;> simp [hp]

theorem get?_store (hx : ps.get? p = some x) (v : PropertyValue) :
    (ps.modify p (·.store v)).get? p = some (x.store v) := by
  rw [get?_modify, if_pos rfl, hx]
  rfl

theorem value?_store (ps : Properties) (p q : PropertyId) (v : PropertyValue) :
    (ps.modify p (·.store v)).value? q
      = if p = q then (ps.value? q).map fun _ => v else ps.value? q := by
  rw [value?, get?_modify]
  split
  · rw [value?, Option.map_map, Option.map_map]
    rfl
  · rfl

theorem get?_modify_of_ne (ps : Properties) (hpq : p ≠ q) (f : Property → Property) :
    (ps.modify p f).get? q = ps.get? q := by
  rw [get?_modify, if_neg hpq]

end Properties

/-! ## Nodes -/

namespace Graph

variable {g : Graph} {id : NodeId} {n : Node} {p : PropertyId} {x : Property}

theorem modifyAt_eq_self {i : Nat} {f : Node → Node} (hi : g.nodeAt? i = some n) (hf : f n = n) :
    g.modifyAt i f = g := by
  rw [modifyAt_congr hi id hf, modifyAt]
  have hslots : g.slots.modify i (fun s => { s with node := s.node.map id }) = g.slots := by
    refine List.ext_getElem? fun j => ?_
    rw [List.getElem?_modify]
    split
    · cases g.slots[j]? <;> simp
    · simp
  rw [hslots]

theorem modifyProperty_modifyProperty (hn : g.node id = .ok n) (p : PropertyId)
    (f f' : Property → Property) :
    (g.modifyProperty id p f).modifyProperty id p f' = g.modifyProperty id p fun x => f' (f x) := by
  have hn' : (g.modifyProperty id p f).node id
      = .ok { n with properties := n.properties.modify p f } := by
    rw [modifyProperty_of_node hn, node_modifyAt _ hn, if_pos rfl]
  rw [modifyProperty_of_node hn', modifyProperty_of_node hn, modifyProperty_of_node hn,
    modifyAt_modifyAt]
  refine modifyAt_congr (nodeAt?_of_node hn) _ ?_
  simp only [Function.comp_apply, Properties.modify_modify]

theorem modifyProperty_eq_self (hn : g.node id = .ok n) (hnd : n.properties.keys.Nodup)
    (hx : n.properties.get? p = some x) {f : Property → Property} (hf : f x = x) :
    g.modifyProperty id p f = g := by
  rw [modifyProperty_of_node hn]
  refine modifyAt_eq_self (nodeAt?_of_node hn) ?_
  rw [Properties.modify_eq_self hnd hx hf]

theorem takeObservers_of_node (hn : g.node id = .ok n) (hx : n.properties.get? p = some x)
    (phase : Phase) : g.takeObservers phase id p
      = (x.observers phase, g.modifyProperty id p (·.setObservers phase [])) := by
  rw [takeObservers, property_eq_ok.mpr ⟨n, hn, hx⟩]

end Graph

/-! ## Observers -/

open SpatialAudio.Graph

variable {s : Session} {id : NodeId} {n : Node} {p : PropertyId} {x : Property}
  {run : Event → Observer → Action Unit}

/-- Observers run while their list is taken out. -/
theorem run_notify (hn : s.graph.node id = .ok n) (hx : n.properties.get? p = some x) (phase : Phase)
    (v : Option PropertyValue) {r : Except Failure Unit} {t : Session}
    (hrun : ((x.observers phase).forM (run ⟨id, p, v⟩)).run
      { s with graph := s.graph.modifyProperty id p (·.setObservers phase []) } = (r, t)) :
    (notify run phase ⟨id, p, v⟩).run s
      = (r, { t with graph := t.graph.restoreObservers phase id p (x.observers phase) }) := by
  rw [notify, run_bind_ok (run_get s)]
  simp only [takeObservers_of_node hn hx]
  rw [run_bind_ok (run_modify _ s), run_bind_ok (run_attempt _ _), hrun,
    run_bind_ok (run_modify _ t), run_settle]

/-- Observers that leave the graph alone leave it as it was. -/
theorem run_notify_of_eq (hn : s.graph.node id = .ok n) (hnd : n.properties.keys.Nodup)
    (hx : n.properties.get? p = some x) (phase : Phase) (v : Option PropertyValue)
    {r : Except Failure Unit}
    (hrun : ((x.observers phase).forM (run ⟨id, p, v⟩)).run
        { s with graph := s.graph.modifyProperty id p (·.setObservers phase []) }
      = (r, { s with graph := s.graph.modifyProperty id p (·.setObservers phase []) })) :
    (notify run phase ⟨id, p, v⟩).run s = (r, s) := by
  rw [run_notify hn hx phase v hrun]
  have hback : (s.graph.modifyProperty id p (·.setObservers phase [])).restoreObservers phase id p
      (x.observers phase) = s.graph := by
    rw [restoreObservers, modifyProperty_modifyProperty hn]
    refine modifyProperty_eq_self hn hnd hx ?_
    simp
  rw [hback]

theorem run_notify_nil (hn : s.graph.node id = .ok n) (hnd : n.properties.keys.Nodup)
    (hx : n.properties.get? p = some x) (phase : Phase) (hnil : x.observers phase = [])
    (v : Option PropertyValue) : (notify run phase ⟨id, p, v⟩).run s = (.ok (), s) := by
  refine run_notify_of_eq hn hnd hx phase v ?_
  rw [hnil]
  rfl

/-- What a value is stored by. -/
theorem run_store (hn : s.graph.node id = .ok n) (hx : n.properties.get? p = some x)
    (v : PropertyValue) : (Action.change fun g => g.store id p v).run s
      = (.ok (), { s with graph := s.graph.modifyProperty id p (·.store v) }) := by
  rw [Action.change, run_onGraph, run_change, store, property_eq_ok.mpr ⟨n, hn, hx⟩]
  rfl

theorem run_validate (hn : s.graph.node id = .ok n) (hx : n.properties.get? p = some x)
    (v : PropertyValue) : (Action.read fun g => do (← g.property id p).validate p v).run s
      = ((x.validate p v).mapError Failure.refused, s) := by
  rw [Action.read, run_onGraph, run_read, property_eq_ok.mpr ⟨n, hn, hx⟩]
  rfl

namespace Graph

/-- The graph in which the observers of the phase after run. -/
def underWay (g : Graph) (id : NodeId) (p : PropertyId) (v : PropertyValue) : Graph :=
  g.modifyProperty id p (·.storing v)

/-- Once the observers are back, all that is left of setting a property is its value. -/
theorem Sound.wrote_restored {g : Graph} (h : g.Sound) {k : NodeKind} {v : PropertyValue}
    (hn : g.node id = .ok { n with kind := k, properties := n.properties.modify p (·.storing v) })
    (hnd : n.properties.keys.Nodup) (hx : n.properties.get? p = some x) :
    g.Wrote id { n with kind := k, properties := n.properties.modify p (·.store v) }
      (g.restoreObservers .after id p x.after) := by
  have hw := h.wrote_modifyProperty hn p fun y =>
    y.setObservers .after (x.after ++ y.observers .after)
  have hback : n.properties.modify p (fun y => (y.storing v).setObservers .after
      (x.after ++ (y.storing v).observers .after)) = n.properties.modify p (·.store v) :=
    Properties.modify_congr hnd hx (x.setObservers_storing v)
  simp only [Properties.modify_modify, hback] at hw
  exact hw

end Graph

/-- **Setting a property**: once the observers of the phase before agree, all that counts is what
those of the phase after do. -/
theorem run_setWith (hn : s.graph.node id = .ok n) (hx : n.properties.get? p = some x)
    {v : PropertyValue} (hv : x.validate p v = .ok ())
    (hbefore : (notify run .before ⟨id, p, some v⟩).run s = (.ok (), s)) {r : Except Failure Unit}
    {t : Session} (hrun : (x.after.forM (run ⟨id, p, none⟩)).run
      { s with graph := s.graph.underWay id p v } = (r, t)) :
    (setWith run id p v).run s
      = (r, { t with graph := t.graph.restoreObservers .after id p x.after }) := by
  have hvalid := run_validate hn hx v
  rw [hv] at hvalid
  have hn' : (s.graph.modifyProperty id p (·.store v)).node id
      = .ok { n with properties := n.properties.modify p (·.store v) } := by
    rw [modifyProperty_of_node hn, node_modifyAt _ hn, if_pos rfl]
  have htaken : (s.graph.modifyProperty id p (·.store v)).modifyProperty id p
      (·.setObservers .after []) = s.graph.underWay id p v :=
    modifyProperty_modifyProperty hn p _ _
  rw [setWith, run_bind_ok hvalid, run_bind_ok hbefore, run_bind_ok (run_store hn hx v)]
  refine run_notify (s := { s with graph := s.graph.modifyProperty id p (·.store v) }) hn'
    (Properties.get?_store hx v) .after none ?_
  rw [← htaken] at hrun
  exact hrun

/-- **Setting a property that nobody observes stores the value.** -/
theorem run_setWith_plain (hn : s.graph.node id = .ok n) (hnd : n.properties.keys.Nodup)
    (hx : n.properties.get? p = some x) (hbefore : x.before = []) (hafter : x.after = [])
    {v : PropertyValue} (hv : x.validate p v = .ok ()) :
    (setWith run id p v).run s
      = (.ok (), { s with graph := s.graph.modifyProperty id p (·.store v) }) := by
  have hvalid := run_validate hn hx v
  rw [hv] at hvalid
  have hn' : (s.graph.modifyProperty id p (·.store v)).node id
      = .ok { n with properties := n.properties.modify p (·.store v) } := by
    rw [modifyProperty_of_node hn, node_modifyAt _ hn, if_pos rfl]
  rw [setWith, run_bind_ok hvalid, run_bind_ok (run_notify_nil hn hnd hx .before hbefore _),
    run_bind_ok (run_store hn hx v)]
  refine run_notify_nil (s := { s with graph := _ }) hn' ?_ (Properties.get?_store hx v) .after
    hafter none
  rw [Properties.keys_eq_of_frame (Properties.frame_store _ _ _)]
  exact hnd

end SpatialAudio
