import SpatialAudio.Proofs.Attendance
import SpatialAudio.Proofs.Convolution
import SpatialAudio.Proofs.Tending

/-!
# Proofs/Listening — a panner for headphones plays the direction it has

A panner looks its responses up only when a block is played and it is marked, and it may be suspended,
or played in no block, for any length of time.  A **listener** follows the history of a panner from
outside: the input of the blocks that it rendered, the direction in the last of them, and whether a
direction was stored since (`Listener`, `listen`).

* A panner that its observers attend to (`Proofs/Attendance`) stays **in tune** with its listener
  (`InTune`): its mark says whether a direction was stored since the last block it rendered, and its
  responses are those of the direction in that block.  Each happening keeps this
  (`InTune.happening`), and so does the history of a session (`InTune.replay`).
* So a block is what the listener expects (`Rendered`): the responses are those of the direction that
  the panner has, looked up once if a direction was stored and not at all otherwise, and a fade starts
  from the direction last heard.
-/

namespace SpatialAudio

open SpatialAudio.Graph

/-! ## Listeners -/

/-- The node `x` before and after a block for `id` that processes it while it is not suspended. -/
def Graph.renders? (g : Graph) (id x : NodeId) : Option (Node × Node) :=
  match g.prepare id, g.pull id, g.node x with
  | .ok (_, ready, none), .ok g', .ok n =>
    if x.index ∈ ready.schedule ∧ n.properties.flag .suspended = false then
      (g'.node x).toOption.map (n, ·)
    else none
  | _, _, _ => none

/-- The input of a panner in the block after which it is the node given. -/
def Node.input (n' : Node) : List Float32 :=
  Convolver.fit blockSize (n'.inputs.headD Block.silent).toArray

/-- What somebody knows who listens to a panner. -/
structure Listener where
  /-- The input of all blocks that the panner rendered. -/
  signal : List Float32
  /-- The direction in the last of them; straight ahead if there was none. -/
  elevation : Float32
  azimuth : Float32
  /-- A direction was stored since. -/
  turned : Bool

namespace Listener

/-- Nothing was heard yet. -/
def start : Listener := ⟨[], 0, 0, false⟩

/-- What is known after a happening. -/
def after (x : NodeId) (g : Graph) (l : Listener) : Happening → Listener
  | .stored id p _ => if id = x ∧ p.isDirection then { l with turned := true } else l
  | .deed (.pull id) =>
    match g.renders? id x with
    | some (n, n') =>
      ⟨l.signal ++ n'.input, n.properties.float .elevation, n.properties.float .azimuth, false⟩
    | none => l
  | _ => l

/-- The past that a block of the panner `n` is to follow, if the responses of the direction last heard
are `old` and those of its own direction are `new`. -/
def past (l : Listener) (n : Node) (old new : Array Float32 × Array Float32) : Convolver.Past :=
  ⟨l.signal, new, old, l.turned && n.properties.flag .shouldCrossfade⟩

end Listener

/-- What is known after some happenings. -/
def listen (x : NodeId) : Listener → Graph → List Happening → Listener
  | l, _, [] => l
  | l, g, k :: ks => listen x (l.after x g k) (k.after g) ks

/-- One ear's block that follows a past. -/
def Convolver.Past.block (past : Convolver.Past) (data : Dataset) (input : List Float32)
    (ear : Array Float32 × Array Float32 → Array Float32) : Block :=
  Vector.ofFn fun i => past.sample data blockSize input ear i

/-- The node `n` is a panner `q` over a dataset and renders a block as a listener expects, after which
it is `n'` with the panner `q'`: `old` are the responses of the direction last heard, `new` those of
the direction that the panner has. -/
structure Rendered (data : Dataset) (l : Listener) (n n' : Node) (q q' : HrtfPanner)
    (old new : Array Float32 × Array Float32) : Prop where
  before : n.kind = .hrtfPanner q
  after : n'.kind = .hrtfPanner q'
  heard : data.stereo l.elevation l.azimuth data.responseLength = .ok old
  faced : data.stereo (n.properties.float .elevation) (n.properties.float .azimuth)
    data.responseLength = .ok new
  used : (q.convolver.left, q.convolver.right) = old
  uses : (q'.convolver.left, q'.convolver.right) = new
  /-- The responses are looked up once if a direction was stored, and not at all otherwise. -/
  lookup : ∃ c left right,
    (if l.turned then
      q.convolver.setDirection (n.properties.float .elevation) (n.properties.float .azimuth)
        (n.properties.flag .shouldCrossfade) = .ok c
    else c = q.convolver) ∧
    q'.convolver = (c.process (n'.inputs.headD Block.silent).toArray left right).1
  /-- The block fades if a direction was stored and it should, and is a plain convolution otherwise. -/
  outputs : ∃ rest, n'.outputs = finish n.properties
    ((l.past n old new).block data n'.input Prod.fst
      :: (l.past n old new).block data n'.input Prod.snd :: rest)

variable {g g' : Graph} {x id : NodeId} {n n' : Node} {q q' q₁ : HrtfPanner} {props : Properties}
  {data : Dataset} {l : Listener} {past : Convolver.Past}

/-! ## Blocks -/

theorem Properties.float_congr {ps qs : Properties} {p : PropertyId}
    (h : ps.value? p = qs.value? p) : ps.float p = qs.float p := by
  rw [value?, value?] at h
  rw [float, float, h]

theorem Graph.renders?_eq {root : Nat} {ready : Graph}
    (hready : g.prepare id = .ok (root, ready, none)) (hpull : g.pull id = .ok g')
    (hn : g.node x = .ok n) (hn' : g'.node x = .ok n') :
    g.renders? id x = if x.index ∈ ready.schedule ∧ n.properties.flag .suspended = false
      then some (n, n') else none := by
  simp only [renders?, hready, hpull, hn, hn']
  rfl

theorem Graph.renders?_eq_some (h : g.renders? id x = some (n, n')) :
    ∃ g', g.pull id = .ok g' ∧ g.node x = .ok n ∧ g'.node x = .ok n' := by
  rw [renders?] at h
  split at h
  · next hpull hn =>
    split at h
    · obtain ⟨m, hm, heq⟩ := Option.map_eq_some_iff.mp h
      cases heq
      exact ⟨_, hpull, hn, eq_ok_of_toOption hm⟩
    · cases h
  · cases h

theorem Graph.renders?_of_error {e : Failure} (hpull : g.pull id = .error e) :
    g.renders? id x = none := by
  rw [renders?, hpull]
  split
  · next h _ => cases h
  · rfl

theorem Graph.renders?_of_refused {root : Nat} {ready : Graph} {refusal : Nat × Error}
    (hready : g.prepare id = .ok (root, ready, some refusal)) : g.renders? id x = none := by
  simp only [renders?, hready]

/-- The responses to fade from count only while there is a fade. -/
theorem Convolver.Past.block_congr {past' : Convolver.Past} (hsignal : past.signal = past'.signal)
    (hcurrent : past.current = past'.current) (hpending : past.pending = past'.pending)
    (hprevious : past.pending = true → past.previous = past'.previous) (data : Dataset)
    (input : List Float32) (ear : Array Float32 × Array Float32 → Array Float32) :
    past.block data input ear = past'.block data input ear := by
  have hsample : past.sample data blockSize input ear = past'.sample data blockSize input ear := by
    funext i
    rw [sample, sample, hsignal, hcurrent, ← hpending]
    cases hfades : past.pending with
    | true => rw [hprevious hfades]
    | false => simp only [Bool.false_eq_true, if_false]
  rw [block, block, hsample]

/-- A panner is rendered by a block, or is left as it is. -/
theorem Graph.Sound.renders_cases (h : g.Sound) (hpull : g.pull id = .ok g')
    (hn : g.node x = .ok n) (hn' : g'.node x = .ok n') (hk : n.kind = .hrtfPanner q) :
    (∀ p, n'.properties.value? p = n.properties.value? p) ∧
      (g.renders? id x = none ∧ n'.kind = n.kind ∨
        g.renders? id x = some (n, n') ∧ ∃ outputs outputs' q',
          outputs.length = n.layout.outputs ∧
          q.process n.properties n'.inputs outputs = .ok (q', outputs') ∧
          n'.kind = .hrtfPanner q' ∧ n'.outputs = finish n.properties outputs') := by
  obtain ⟨m', hm', hfate⟩ := h.exists_fate hpull hn
  cases hm'.symm.trans hn'
  cases hfate with
  | refused hready hbides =>
    exact ⟨fun p => by rw [hbides.properties], .inl ⟨renders?_of_refused hready, (hbides.hrtf q hk).1⟩⟩
  | around hready hleads _ hunmarked =>
    subst hunmarked
    refine ⟨n.properties.value?_clearModified, .inl ⟨?_, rfl⟩⟩
    rw [renders?_eq hready hpull hn hn',
      if_neg fun hin => hleads ((h.prepared hready).scheduled.mp hin.1)]
  | beside hready hleads _ hsame =>
    subst hsame
    refine ⟨fun p => rfl, .inl ⟨?_, rfl⟩⟩
    rw [renders?_eq hready hpull hn hn',
      if_neg fun hin => hleads ((h.prepared hready).scheduled.mp hin.1)]
  | @turn root ready m rings rings' hready hleads hbides hturn =>
    obtain ⟨hkind, hlayout⟩ := hbides.hrtf q hk
    refine ⟨fun p => by
      rw [hturn.properties, Properties.value?_clearModified, hbides.properties], ?_⟩
    rw [renders?_eq hready hpull hn hn']
    cases hflag : n.properties.flag .suspended with
    | true =>
      refine .inl ⟨if_neg fun h => Bool.noConfusion h.2, ?_⟩
      exact ((hturn.suspended (by rwa [hbides.properties])).1).trans hkind
    | false =>
      refine .inr ⟨if_pos ⟨(h.prepared hready).scheduled.mpr hleads, rfl⟩, ?_⟩
      obtain ⟨done, hdone, hkind', houtputs, -⟩ := hturn.active (by rwa [hbides.properties])
      have hlength : m.outputs.length = n.layout.outputs := by
        have hsound : g'.Sound := h.pull hpull
        rw [← (NodeKind.process_ok hdone).1, ← length_finish m.properties, ← houtputs,
          (hsound.wellFormed.fits _ n' (nodeAt?_of_node hn')).outputs, hturn.layout, hlayout]
      rw [hkind, hk] at hdone
      obtain ⟨⟨q', outputs'⟩, hprocess, hdone⟩ := bind_eq_ok.mp hdone
      cases hdone
      rw [hbides.properties] at hprocess houtputs
      exact ⟨m.outputs, outputs', q', hlength, hprocess, hkind', houtputs⟩

theorem Convolver.overwrite_eq_ofFn (out : Block) (f : Nat → Float32) :
    overwrite out.toArray blockSize f = (Vector.ofFn fun i : Fin blockSize => f i).toArray := by
  refine Array.ext_getElem? fun i => ?_
  rw [getElem?_overwrite (Nat.le_of_eq out.size_toArray.symm), Vector.toArray_ofFn,
    Array.getElem?_ofFn]
  by_cases hi : i < blockSize
  · rw [if_pos hi, dif_pos hi]
  · rw [if_neg hi, dif_neg hi, Array.getElem?_eq_none (by rw [out.size_toArray]; omega)]

namespace HrtfPanner

theorem refresh_eq_ok (h : q.refresh props = .ok q₁) :
    q₁.needsRecompute = false ∧
      if q.needsRecompute then
        q.convolver.setDirection (props.float .elevation) (props.float .azimuth)
          (props.flag .shouldCrossfade) = .ok q₁.convolver
      else q₁.convolver = q.convolver := by
  rw [refresh] at h
  split at h
  · next hmarked =>
    obtain ⟨c, hc, h⟩ := bind_eq_ok.mp h
    cases h
    rw [if_pos hmarked]
    exact ⟨rfl, hc⟩
  · next hmarked =>
    cases h
    rw [if_neg hmarked]
    exact ⟨Bool.eq_false_iff.mpr hmarked, rfl⟩

/-- With an output for each ear, the first input is convolved. -/
theorem convolved_of_process {inputs outputs outputs' : List Block} (htwo : 2 ≤ outputs.length)
    (h : q.process props inputs outputs = .ok (q', outputs')) :
    ∃ q₁ left right rest, q.refresh props = .ok q₁ ∧ outputs = left :: right :: rest ∧
      q' = (q₁.convolve (inputs.headD Block.silent) left right).1 ∧
      outputs' = (q₁.convolve (inputs.headD Block.silent) left right).2.1
        :: (q₁.convolve (inputs.headD Block.silent) left right).2.2 :: rest := by
  obtain ⟨q₁, hrefresh, h⟩ := bind_eq_ok.mp h
  match outputs, htwo with
  | left :: right :: rest, _ =>
    cases h
    exact ⟨q₁, left, right, rest, hrefresh, rfl, rfl, rfl⟩

/-- The blocks of a panner are those that follow its past. -/
theorem convolve_eq (h : Convolver.Tracks data blockSize past q.convolver) (input left right : Block) :
    (q.convolve input left right).2
      = (past.block data (Convolver.fit blockSize input.toArray) Prod.fst,
        past.block data (Convolver.fit blockSize input.toArray) Prod.snd) := by
  have hout := h.process_eq input.toArray left.toArray right.toArray
  rw [left.size_toArray, right.size_toArray, Nat.min_self, Nat.min_self] at hout
  refine Prod.ext (Vector.toArray_inj.mp ?_) (Vector.toArray_inj.mp ?_)
  · exact (congrArg Prod.fst hout).trans (Convolver.overwrite_eq_ofFn left _)
  · exact (congrArg Prod.snd hout).trans (Convolver.overwrite_eq_ofFn right _)

end HrtfPanner

/-! ## In tune -/

/-- A panner `q` with a past is what the listener takes it for. -/
structure Tuned (data : Dataset) (l : Listener) (n : Node) (q : HrtfPanner)
    (past : Convolver.Past) : Prop where
  kind : n.kind = .hrtfPanner q
  tracks : Convolver.Tracks data blockSize past q.convolver
  signal : past.signal = l.signal
  settled : past.pending = false
  heard : data.stereo l.elevation l.azimuth data.responseLength = .ok past.current
  marked : q.needsRecompute = l.turned
  still : l.turned = false → n.properties.float .elevation = l.elevation ∧
    n.properties.float .azimuth = l.azimuth

/-- A node is a panner over a dataset and in tune with its listener. -/
def InTune (data : Dataset) (l : Listener) (n : Node) : Prop := ∃ q past, Tuned data l n q past

theorem Tuned.congr (h : Tuned data l n q past) (hkind : n'.kind = n.kind)
    (hvalues : ∀ p, p.isDirection = true → n'.properties.value? p = n.properties.value? p) :
    Tuned data l n' q past where
  kind := hkind.trans h.kind
  tracks := h.tracks
  signal := h.signal
  settled := h.settled
  heard := h.heard
  marked := h.marked
  still hturned := by
    rw [Properties.float_congr (hvalues .elevation rfl), Properties.float_congr (hvalues .azimuth rfl)]
    exact h.still hturned

/-- A mark says that a direction was stored. -/
theorem Tuned.mark (h : Tuned data l n q past) (hkind : n'.kind = .hrtfPanner q.markRecompute) :
    Tuned data { l with turned := true } n' q.markRecompute past where
  kind := hkind
  tracks := h.tracks
  signal := h.signal
  settled := h.settled
  heard := h.heard
  marked := rfl
  still := nofun

/-- The past that a block follows: with a turn before it, if there was one. -/
theorem Tuned.refresh (h : Tuned data l n q past) (hrefresh : q.refresh n.properties = .ok q₁) :
    ∃ new past₁, data.stereo (n.properties.float .elevation) (n.properties.float .azimuth)
        data.responseLength = .ok new ∧
      Convolver.Tracks data blockSize past₁ q₁.convolver ∧ past₁.signal = l.signal ∧
      past₁.current = new ∧ ∀ input ear,
        past₁.block data input ear = (l.past n past.current new).block data input ear := by
  obtain ⟨-, hconvolver⟩ := HrtfPanner.refresh_eq_ok hrefresh
  rw [h.marked] at hconvolver
  simp only [Listener.past]
  cases hturned : l.turned with
  | true =>
    rw [hturned, if_pos rfl] at hconvolver
    obtain ⟨left, right, hnew, -⟩ := Convolver.setDirection_eq_ok hconvolver
    rw [h.tracks.dataset] at hnew
    refine ⟨(left, right), _, hnew, h.tracks.setDirection hnew hconvolver, h.signal, rfl,
      fun input ear => ?_⟩
    refine Convolver.Past.block_congr ?_ ?_ ?_ (fun hfades => ?_) data input ear
    · exact h.signal
    · rfl
    · exact (Bool.true_and _).symm
    · exact if_pos hfades
  | false =>
    rw [hturned, if_neg Bool.false_ne_true] at hconvolver
    obtain ⟨helevation, hazimuth⟩ := h.still hturned
    refine ⟨past.current, past, by rw [helevation, hazimuth]; exact h.heard, hconvolver ▸ h.tracks,
      h.signal, rfl, fun input ear => ?_⟩
    refine Convolver.Past.block_congr ?_ ?_ ?_ (fun hfades => ?_) data input ear
    · exact h.signal
    · rfl
    · exact h.settled
    · exact absurd (hfades.symm.trans h.settled) (by decide)

/-- **A block is what the listener expects, and keeps the panner in tune.** -/
theorem Tuned.render (h : Tuned data l n q past) {outputs outputs' : List Block}
    (htwo : 2 ≤ outputs.length)
    (hprocess : q.process n.properties n'.inputs outputs = .ok (q', outputs'))
    (hkind : n'.kind = .hrtfPanner q') (houtputs : n'.outputs = finish n.properties outputs')
    (hvalues : ∀ p, n'.properties.value? p = n.properties.value? p) :
    (∃ old new, Rendered data l n n' q q' old new) ∧
      InTune data ⟨l.signal ++ n'.input, n.properties.float .elevation,
        n.properties.float .azimuth, false⟩ n' := by
  obtain ⟨q₁, left, right, rest, hrefresh, -, rfl, rfl⟩ := HrtfPanner.convolved_of_process htwo hprocess
  obtain ⟨hsettled, hconvolver⟩ := HrtfPanner.refresh_eq_ok hrefresh
  obtain ⟨new, past₁, hnew, htracks, hsignal, hcurrent, hblock⟩ := h.refresh hrefresh
  have hblocks := HrtfPanner.convolve_eq htracks (n'.inputs.headD Block.silent) left right
  have htracks' := htracks.process (n'.inputs.headD Block.silent).toArray left.toArray right.toArray
  have huses : (q₁.convolver.left, q₁.convolver.right) = new := htracks.current.trans hcurrent
  rw [h.marked] at hconvolver
  refine ⟨⟨past.current, new, h.kind, hkind, h.heard, hnew, h.tracks.current, huses, ?_, ?_⟩, ?_⟩
  · exact ⟨q₁.convolver, left.toArray, right.toArray, hconvolver, rfl⟩
  · refine ⟨rest, ?_⟩
    rw [← hblock, ← hblock, houtputs, hblocks]
    rfl
  · refine ⟨_, _, ⟨hkind, htracks', ?_, rfl, ?_, hsettled, fun _ => ?_⟩⟩
    · rw [Convolver.Past.hear, hsignal]
      rfl
    · rw [hnew, ← hcurrent]
      rfl
    · exact ⟨Properties.float_congr (hvalues _), Properties.float_congr (hvalues _)⟩

/-! ## Histories -/

theorem Properties.value?_modify {ps : Properties} {p p' : PropertyId} {f : Property → Property}
    (hf : ∀ y, (f y).value = y.value) : (ps.modify p f).value? p' = ps.value? p' :=
  map_get?_modify hf

theorem Node.value?_withObservers (n : Node) (phase : Phase) (p p' : PropertyId)
    (f : List Observer → List Observer) :
    (n.withObservers phase p f).properties.value? p' = n.properties.value? p' :=
  Properties.value?_modify fun y => by cases phase <;> rfl

/-- What becomes of the panner `q` of a node `x` in a happening. -/
inductive Handled (x : NodeId) (g : Graph) (k : Happening) (n n' : Node) (q : HrtfPanner) : Prop
  /-- It is a block that renders the panner. -/
  | rendered {id : NodeId} {outputs outputs' : List Block} {q' : HrtfPanner}
      (hblock : k = .deed (.pull id)) (hrenders : g.renders? id x = some (n, n'))
      (hlength : outputs.length = n.layout.outputs)
      (hprocess : q.process n.properties n'.inputs outputs = .ok (q', outputs'))
      (hkind : n'.kind = .hrtfPanner q') (houtputs : n'.outputs = finish n.properties outputs')
      (hvalues : ∀ p, n'.properties.value? p = n.properties.value? p)
  | marked (hmarks : k.marks x = true) (hkind : n'.kind = .hrtfPanner q.markRecompute)
  /-- The panner is left alone; its direction may be stored. -/
  | left (hquiet : ∀ id, k = .deed (.pull id) → g.renders? id x = none) (hkind : n'.kind = n.kind)
      (hvalues : k.turns x = false →
        ∀ p, p.isDirection = true → n'.properties.value? p = n.properties.value? p)

theorem Graph.Sound.handled_pull (h : g.Sound) (hn : g.node x = .ok n) (hq : n.kind = .hrtfPanner q)
    {k : Happening} (hk : k = .deed (.pull id)) (hn' : (k.after g).node x = .ok n') :
    Handled x g k n n' q := by
  subst hk
  change ((GraphM.update fun g => g.pull id).run g).2.node x = .ok n' at hn'
  rw [run_update] at hn'
  have hid : ∀ id', Happening.deed (.pull id) = .deed (.pull id') → id' = id := by
    intro id' heq
    cases heq
    rfl
  cases hpull : g.pull id with
  | error e =>
    rw [hpull] at hn'
    cases hn.symm.trans hn'
    exact .left (fun id' heq => hid id' heq ▸ renders?_of_error hpull) rfl fun _ _ _ => rfl
  | ok g' =>
    rw [hpull] at hn'
    obtain ⟨hvalues, hcases⟩ := h.renders_cases hpull hn hn' hq
    rcases hcases with ⟨hnone, hkind⟩ | ⟨hsome, outputs, outputs', q', hlength, hprocess, hkind, hout⟩
    · exact .left (fun id' heq => hid id' heq ▸ hnone) hkind fun _ p _ => hvalues p
    · exact .rendered rfl hsome hlength hprocess hkind hout hvalues

/-- **A panner is rendered, marked or left alone.** -/
theorem Happening.handled (h : g.Sound) (k : Happening) (hn : g.node x = .ok n)
    (hq : n.kind = .hrtfPanner q) (hn' : (k.after g).node x = .ok n') : Handled x g k n n' q := by
  by_cases hpull : ∃ id, k = .deed (.pull id)
  · obtain ⟨id, hk⟩ := hpull
    exact h.handled_pull hn hq hk hn'
  have hquiet : ∀ id, k = .deed (.pull id) → g.renders? id x = none :=
    fun id hk => absurd ⟨id, hk⟩ hpull
  rcases k.same_or_touches h hn hn' with rfl | htouched
  · exact .left hquiet rfl fun _ _ _ => rfl
  cases k with
  | taken phase id p =>
    obtain ⟨-, rfl⟩ := htouched
    exact .left hquiet rfl fun _ p' _ => n.value?_withObservers phase p p' _
  | restored phase id p os =>
    obtain ⟨-, rfl⟩ := htouched
    exact .left hquiet rfl fun _ p' _ => n.value?_withObservers phase p p' _
  | stored id p v =>
    obtain ⟨rfl, rfl⟩ := htouched
    refine .left hquiet rfl fun hturns p' hp' => ?_
    rw [Properties.value?_store, if_neg]
    rintro rfl
    simp [Happening.turns, hp'] at hturns
  | deed d =>
    cases d with
    | arrange id layout =>
      obtain ⟨-, rfl⟩ := htouched
      refine .left hquiet ?_ fun _ p _ => by rw [rearrange_properties]
      rw [rearrange_kind, hq]
      rfl
    | observe phase id p o =>
      obtain ⟨-, rfl⟩ := htouched
      exact .left hquiet rfl fun _ p' _ => n.value?_withObservers phase p p' _
    | recomputeMap id =>
      obtain ⟨-, -, -, q', -, hq', -⟩ := htouched
      cases hq.symm.trans hq'
    | markRecompute id =>
      obtain ⟨hid, q', hq', rfl⟩ := htouched
      cases hq.symm.trans hq'
      exact .marked (decide_eq_true hid) rfl
    | adopt id strategy =>
      obtain ⟨-, m, hm, -⟩ := htouched
      cases hq.symm.trans hm
    | pull id => exact absurd ⟨id, rfl⟩ hpull
    | _ => exact htouched.elim

theorem Listener.after_eq_self {k : Happening} (hturns : k.turns x = false)
    (hquiet : ∀ id, k = .deed (.pull id) → g.renders? id x = none) : l.after x g k = l := by
  cases k with
  | deed d =>
    cases d with
    | pull id => rw [Listener.after, hquiet id rfl]
    | _ => rfl
  | stored id p v => exact if_neg fun hx => by simp [Happening.turns, hx] at hturns
  | _ => rfl

/-- **What does not turn or mark a panner keeps it in tune.** -/
theorem InTune.happening (h : g.Sound) (hI : InTune data l n) (hn : g.node x = .ok n)
    (htwo : 2 ≤ n.layout.outputs) {k : Happening} (hturns : k.turns x = false)
    (hmarks : k.marks x = false) (hn' : (k.after g).node x = .ok n') :
    InTune data (l.after x g k) n' := by
  obtain ⟨q, past, htuned⟩ := hI
  cases k.handled h hn htuned.kind hn' with
  | rendered hblock hrenders hlength hprocess hkind houtputs hvalues =>
    subst hblock
    simp only [Listener.after, hrenders]
    exact (htuned.render (hlength ▸ htwo) hprocess hkind houtputs hvalues).2
  | marked hmarked => exact absurd (hmarked.symm.trans hmarks) (by decide)
  | left hquiet hkind hvalues =>
    rw [Listener.after_eq_self hturns hquiet]
    exact ⟨q, past, htuned.congr hkind (hvalues hturns)⟩

theorem Graph.node_markRecompute (hn : g.node x = .ok n) (hk : n.kind = .hrtfPanner q) :
    ((Deed.markRecompute x).after g).node x
      = .ok { n with kind := .hrtfPanner q.markRecompute } := by
  have hmark : g.markRecompute x
      = .ok (g.modifyAt x.index fun n => { n with kind := .hrtfPanner q.markRecompute }) :=
    bind_eq_ok.mpr ⟨n, hn, bind_eq_ok.mpr ⟨q, by rw [hk]; rfl, rfl⟩⟩
  rw [Deed.after, Deed.run, run_change, hmark]
  exact (node_modifyAt _ hn x).trans (if_pos rfl)

/-- The panner is there and has at least two outputs. -/
def HasTwoOutputs (x : NodeId) (g : Graph) : Prop :=
  ∃ n, g.node x = .ok n ∧ 2 ≤ n.layout.outputs

instance (x : NodeId) (g : Graph) : Decidable (HasTwoOutputs x g) :=
  match hn : g.node x with
  | .ok n => decidable_of_iff (2 ≤ n.layout.outputs) (by simp [HasTwoOutputs, hn])
  | .error _ => .isFalse (by simp [HasTwoOutputs, hn])

/-- **A panner that is marked right after it was turned is in tune.** -/
theorem InTune.turned (hI : InTune data l n) (hn : g.node x = .ok n) (p : PropertyId)
    (v : PropertyValue) :
    ∃ n', (replay g [.stored x p v, .taken .after x p, .deed (.markRecompute x)]).node x = .ok n' ∧
      InTune data { l with turned := true } n' := by
  obtain ⟨q, past, htuned⟩ := hI
  have hmodified : ∀ {g : Graph} {n : Node} (f : Property → Property), g.node x = .ok n →
      (g.modifyProperty x p f).node x = .ok { n with properties := n.properties.modify p f } :=
    fun f hn => by rw [node_modifyProperty hn, if_pos rfl]
  have htaken := hmodified (·.setObservers .after []) (hmodified (·.store v) hn)
  exact ⟨_, node_markRecompute htaken htuned.kind, _, _, htuned.mark rfl⟩

/-- **The history of a panner that its observers attend to keeps it in tune**, as long as it has two
outputs. -/
theorem InTune.replay {hs pre post : List Happening} (hattended : Attended x g hs) (h : g.Sound)
    (hI : InTune data l n) (hn : g.node x = .ok n) (hsplit : hs = pre ++ .deed (.pull id) :: post)
    (htwo : Throughout (HasTwoOutputs x) g pre) :
    ∃ n', (SpatialAudio.replay g pre).node x = .ok n' ∧ InTune data (listen x l g pre) n' := by
  induction hattended generalizing pre l n with
  | nil g => exact absurd hsplit (List.append_ne_nil_of_right_ne_nil _ (List.cons_ne_nil _ _)).symm
  | gone hs hgone => exact absurd (contains_iff.mpr ⟨n, hn⟩) hgone
  | @other g k hs hturns hmarks _ ih =>
    cases pre with
    | nil => exact ⟨n, hn, hI⟩
    | cons k' pre =>
      obtain ⟨rfl, rfl⟩ := List.cons.inj hsplit
      obtain ⟨⟨m, hm, hlayout⟩, htwo⟩ := throughout_cons.mp htwo
      cases hn.symm.trans hm
      obtain ⟨n', hn', -⟩ := htwo.start
      exact ih (h.happening k) (hI.happening h hn hlayout hturns hmarks hn') hn' rfl htwo
  | @turned g p v hs hp _ ih =>
    match pre, hsplit with
    | k₁ :: k₂ :: k₃ :: pre, hsplit =>
      simp only [List.cons_append, List.cons.injEq] at hsplit
      obtain ⟨rfl, rfl, rfl, rfl⟩ := hsplit
      obtain ⟨n', hn', hI'⟩ := hI.turned hn p v
      have hlisten : listen x l g (.stored x p v :: .taken .after x p :: .deed (.markRecompute x) :: pre)
          = listen x { l with turned := true } (SpatialAudio.replay g
            [.stored x p v, .taken .after x p, .deed (.markRecompute x)]) pre := by
        simp only [listen, Listener.after, hp, and_self, if_true]
        rfl
      rw [hlisten]
      refine ih (h.replay _) hI' hn' rfl ?_
      exact Throughout.right (g := g) htwo

/-! ## New panners -/

/-- A panner for headphones was just made over a dataset, on its own or inside a multipanner. -/
inductive Made (x : NodeId) (data : Dataset) : Session → Prop
  | alone {s t : Session} {label source : Label} (hs : s.Ran)
      (hdata : (Action.dataset source).run s = (.ok data, s))
      (hstep : s.step (.create label (.hrtfPanner source)) = (.answer (.node x), t)) :
      Made x data t
  | inside {s t : Session} {label source : Label} {M : NodeId} {m : Multipanner} (hs : s.Ran)
      (hdata : (Action.dataset source).run s = (.ok data, s))
      (hstep : s.step (.create label (.multipanner source)) = (.answer (.node M), t))
      (hm : Multipanner.find t.graph M = .ok m) (hx : m.hrtf = x) : Made x data t

theorem Made.holds {t : Session} (h : Made x data t) : t.graph.Sound ∧ ∃ q owner,
    HrtfPanner.new data = .ok q ∧
      t.graph.Holds x (.hrtfPanner q) hrtfProperties (.spread 2) owner none := by
  cases h with
  | @alone s t label source hs hdata hstep =>
    cases hq : HrtfPanner.new data with
    | error a =>
      have hrun : (Step.create label (.hrtfPanner source)).run.run s = (.error (.aborted a), s) := by
        refine run_bind_error ?_
        rw [Creation.run, run_bind_ok hdata]
        refine run_bind_error ?_
        rw [run_onGraph, run_createHrtfPanner_of_error hq]
      rw [Session.step, hrun] at hstep
      cases hstep
    | ok q =>
      obtain ⟨g', n, hcreate, hw, hkind, hprops, hlayout, howner, hinterior⟩ :=
        run_createHrtfPanner hs.housed.sound hq
      have hrun : (Step.create label (.hrtfPanner source)).run.run s
          = (.ok (.answer (.node s.graph.nextHandle)),
            { s with graph := g', nodes := s.nodes.bind label s.graph.nextHandle }) := by
        have hcreated : (Action.onGraph (createHrtfPanner data)).run s
            = (.ok s.graph.nextHandle, { s with graph := g' }) := by
          rw [run_onGraph, hcreate]
        refine (run_bind_ok ?_).trans rfl
        rw [Creation.run, run_bind_ok hdata, run_bind_ok hcreated]
        rfl
      rw [Session.step, hrun] at hstep
      cases hstep
      refine ⟨hw.sound, q, none, rfl, n.inputs, n.outputs, ?_⟩
      rw [hw.self, ← hkind, ← hprops, ← hlayout, ← howner, ← hinterior]
  | @inside s t label source M m hs hdata hstep hm hx =>
    obtain ⟨m', data', q, hdata', hq, hkept, hm', -, hholds⟩ :=
      Multipanner.kept_of_created hs hstep
    cases hdata.symm.trans hdata'
    cases hm.symm.trans hm'
    subst hx
    obtain ⟨_, _, _, _, _, _, harranged⟩ := hkept
    exact ⟨harranged.sound, q, some M, hq, hholds⟩

/-- The observers of a new panner are in their places. -/
theorem watch_of_holds {owner : Option NodeId} (h : g.Sound)
    (hx : g.Holds x (.hrtfPanner q) hrtfProperties (.spread 2) owner none) :
    Watch x (busyWith x []) g := by
  obtain ⟨inputs, outputs, hn⟩ := hx
  refine ⟨h, fun n' hn' phase p os hos => ?_⟩
  cases hn.symm.trans hn'
  cases phase <;> cases p <;> cases hos <;> first | exact List.not_mem_nil | exact ⟨[], rfl, List.not_mem_nil⟩

/-- A new panner was turned straight ahead. -/
theorem HrtfPanner.tracks_of_new (hq : HrtfPanner.new data = .ok q) :
    q.needsRecompute = false ∧ ∃ ahead, data.stereo 0 0 data.responseLength = .ok ahead ∧
      Convolver.Tracks data blockSize (.start data ahead) q.convolver := by
  obtain ⟨c, hc, hq⟩ := bind_eq_ok.mp hq
  cases hq
  obtain ⟨history, hhistory, hturn⟩ := bind_eq_ok.mp hc
  obtain ⟨left, right, hahead, -⟩ := Convolver.setDirection_eq_ok hturn
  exact ⟨rfl, _, hahead, Convolver.tracks_new hahead hc⟩

/-- A new panner is in tune with somebody who did not hear anything yet. -/
theorem inTune_of_new (hq : HrtfPanner.new data = .ok q) (hkind : n.kind = .hrtfPanner q)
    (hprops : n.properties = hrtfProperties) : InTune data .start n := by
  obtain ⟨hmarked, ahead, hahead, htracks⟩ := HrtfPanner.tracks_of_new hq
  refine ⟨q, _, hkind, htracks, rfl, rfl, hahead, hmarked, fun _ => ?_⟩
  rw [hprops]
  exact ⟨rfl, rfl⟩

/-- **A panner for headphones plays the direction it has, and fades from the one last heard.** -/
theorem rendered_of_made {t : Session} (hmade : Made x data t) (steps : List Step)
    -- nobody marks the panner but its own observers
    (hmarks : ∀ k ∈ (t.bidden steps).happenings, k.marks x = false)
    -- no direction of it is stored while observers of that direction are at work
    (hcalls : ∀ c ∈ (t.tale steps).calls, c.node = x → c.property.isDirection = true →
      c.underWay = [])
    {pre post : List Happening}
    (hblock : (t.tale steps).happenings = pre ++ .deed (.pull id) :: post)
    (htwo : Throughout (HasTwoOutputs x) t.graph pre)
    (hrenders : (replay t.graph pre).renders? id x = some (n, n')) :
    ∃ q q' old new, Rendered data (listen x .start t.graph pre) n n' q q' old new := by
  obtain ⟨hsound, q, owner, hq, hholds⟩ := hmade.holds
  have ⟨inputs, outputs, hn⟩ := hholds
  have hattended := (follows_tale t steps ⟨hcalls, hmarks⟩ (watch_of_holds hsound hholds)).1
  obtain ⟨m, hm, q, past, htuned⟩ :=
    (inTune_of_new hq rfl rfl).replay hattended hsound hn hblock htwo
  obtain ⟨g', hpull, hn, hn'⟩ := renders?_eq_some hrenders
  cases hm.symm.trans hn
  obtain ⟨hvalues, hcases⟩ := (hsound.replay pre).renders_cases hpull hn hn' htuned.kind
  rcases hcases with ⟨hnone, -⟩ | ⟨-, outputs, outputs', q', hlength, hprocess, hkind, hout⟩
  · cases hnone.symm.trans hrenders
  · obtain ⟨m', hm', hlayout⟩ := htwo pre List.prefix_rfl
    cases hm.symm.trans hm'
    obtain ⟨⟨old, new, hrendered⟩, -⟩ := htuned.render (hlength ▸ hlayout) hprocess hkind hout hvalues
    exact ⟨q, q', old, new, hrendered⟩

/-- Two directions with responses of one sample each: ahead, and behind twice as loud. -/
def louderBehind : Dataset := ⟨44100, 0, 0, [2], 1, [0x3f800000, 0x40000000]⟩

/-- The dataset is loaded. -/
def loaded : Session :=
  ((Session.new 44100 64).step (.load "ears" (.buffer (.fields louderBehind)))).2

/-- A panner is made over it. -/
def pannerAlone : Session := (loaded.step (.create "panner" (.hrtfPanner "ears"))).2

/-- The panner plays ahead, is turned around and plays again. -/
def turnedAround : List Step :=
  [.process "panner" 1, .command (.set "panner" .azimuth (.float 180)), .process "panner" 1]

/-- The node for which a block is played. -/
def Happening.root? : Happening → Option NodeId
  | deed (.pull id) => some id
  | _ => none

theorem Happening.eq_of_root? {k : Happening} (h : k.root? = some id) : k = .deed (.pull id) := by
  cases k with
  | deed d =>
    cases d with
    | pull id' => rw [Option.some.inj h]
    | _ => cases h
  | _ => cases h

/-- The node that a step answers with. -/
def Report.node? : Report → Option NodeId
  | answer (.node x) => some x
  | _ => none

theorem Report.eq_of_node? {r : Report} (h : r.node? = some x) : r = .answer (.node x) := by
  cases r with
  | answer a =>
    cases a with
    | node y => rw [Option.some.inj h]
    | _ => cases h
  | _ => cases h

theorem made_pannerAlone : Made ⟨0, 0⟩ louderBehind pannerAlone := by
  have hnode : (loaded.step (.create "panner" (.hrtfPanner "ears"))).1.node? = some ⟨0, 0⟩ := by
    decide +kernel
  have hstep : loaded.step (.create "panner" (.hrtfPanner "ears"))
      = (.answer (.node ⟨0, 0⟩), pannerAlone) := by
    rw [pannerAlone, ← Report.eq_of_node? hnode]
  exact .alone (.step (.new 44100 64) _) rfl hstep

/-- The second block of the panner, after which nothing happens. -/
theorem view_turnedAround :
    let tale := pannerAlone.tale turnedAround
    let pre := tale.happenings.take 7
    (∀ k ∈ (pannerAlone.bidden turnedAround).happenings, k.marks ⟨0, 0⟩ = false) ∧
    (∀ c ∈ tale.calls, c.node = ⟨0, 0⟩ → c.property.isDirection = true → c.underWay = []) ∧
    (tale.happenings.drop 7).map Happening.root? = [some ⟨0, 0⟩] ∧
    Throughout (HasTwoOutputs ⟨0, 0⟩) pannerAlone.graph pre ∧
    ((replay pannerAlone.graph pre).renders? ⟨0, 0⟩ ⟨0, 0⟩).isSome = true ∧
    (listen ⟨0, 0⟩ .start pannerAlone.graph pre).signal.length = 64 ∧
    (listen ⟨0, 0⟩ .start pannerAlone.graph pre).turned = true := by
  decide +kernel

theorem rendered_turnedAround : ∃ pre n n' q q' old new,
    (pannerAlone.tale turnedAround).happenings = pre ++ [.deed (.pull ⟨0, 0⟩)] ∧
    (replay pannerAlone.graph pre).renders? ⟨0, 0⟩ ⟨0, 0⟩ = some (n, n') ∧
    (listen ⟨0, 0⟩ .start pannerAlone.graph pre).signal.length = 64 ∧
    (listen ⟨0, 0⟩ .start pannerAlone.graph pre).turned = true ∧
    Rendered louderBehind (listen ⟨0, 0⟩ .start pannerAlone.graph pre) n n' q q' old new := by
  obtain ⟨hmarks, hcalls, hlast, htwo, hrenders, hsignal, hturned⟩ := view_turnedAround
  obtain ⟨⟨n, n'⟩, hrenders⟩ := Option.isSome_iff_exists.mp hrenders
  have hblock : (pannerAlone.tale turnedAround).happenings
      = (pannerAlone.tale turnedAround).happenings.take 7 ++ [.deed (.pull ⟨0, 0⟩)] := by
    obtain ⟨k, ks, hdrop, hk, hks⟩ := List.map_eq_cons_iff.mp hlast
    rw [← Happening.eq_of_root? hk, ← List.map_eq_nil_iff.mp hks, ← hdrop, List.take_append_drop]
  obtain ⟨q, q', old, new, hrendered⟩ :=
    rendered_of_made made_pannerAlone turnedAround hmarks hcalls hblock htwo hrenders
  exact ⟨_, n, n', q, q', old, new, hblock, hrenders, hsignal, hturned, hrendered⟩

end SpatialAudio
