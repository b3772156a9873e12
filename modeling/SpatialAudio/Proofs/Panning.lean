import Mathlib.Data.List.Rotate
import SpatialAudio.Proofs.Angles
import SpatialAudio.Proofs.Elementwise
import SpatialAudio.Proofs.Playback
import SpatialAudio.Proofs.Speakers

/-!
# Proofs/Panning — a panner is heard from two neighbouring speakers

The search for the speakers around an azimuth goes over the pairs of speakers that follow each other
on the circle (`search_eq`), so that one speaker or two neighbours receive signal
(`ChannelMap.shares_gains`).  On the way round the azimuth lies between some such pair, unless all
speakers stand at one angle (`exists_between`); so if angles are exact the two that receive signal
have it between them (`gains_of_exact`).

No output belongs to two speakers of a map that was built: both the signal and the blend with the
input change every output at most once (`getElem?_foldl_modify`), and `process_pans` says what each
of them holds, sample by sample.
-/

namespace SpatialAudio

/-! ## Blocks sample by sample -/

namespace Block

theorem size_slice (b : Block) : b.slice.samples.size = blockSize := Vector.size_toArray _

theorem getElem_accumulate (gain : Float32) (input b : Block) {i : Nat} (hi : i < blockSize) :
    (b.accumulate gain input.toArray)[i] = b[i] + gain * input[i] := by
  have hlt : i < min b.slice.samples.size input.slice.samples.size := by
    rw [size_slice, size_slice, Nat.min_self]
    exact hi
  exact (Kernel.stores_multiplyAdd gain input.slice b.slice).replaces.getElem hlt _

theorem getElem_scale (c : Float32) (b : Block) {i : Nat} (hi : i < blockSize) :
    (b.scale c)[i] = c * b[i] :=
  (Kernel.stores_scaleInPlace c b.slice).replaces.getElem (hi.trans_eq b.size_slice.symm) _

theorem getElem_silent {i : Nat} (hi : i < blockSize) : silent[i] = 0 := Vector.getElem_replicate hi

end Block

/-- Changes at places that all differ are made once each. -/
theorem getElem?_foldl_modify {α β : Type} (key : β → Nat) (f : β → α → α) {l : List β}
    (hnodup : (l.map key).Nodup) (outs : List α) (k : Nat) :
    (l.foldl (fun outs x => outs.modify (key x) (f x)) outs)[k]?
      = outs[k]?.map fun a => (l.find? (key · = k)).elim a fun x => f x a := by
  induction l generalizing outs with
  | nil => exact Option.map_id'.symm
  | cons x l ih =>
    obtain ⟨hx, hl⟩ := List.nodup_cons.mp hnodup
    rw [List.foldl_cons, ih hl, List.getElem?_modify, List.find?_cons]
    by_cases hk : key x = k
    · have hnone : l.find? (key · = k) = none := by
        refine List.find?_eq_none.mpr fun y hy => ?_
        have : key y ≠ k := fun h => hx (hk ▸ h ▸ List.mem_map_of_mem hy)
        simpa using this
      rw [hnone, Option.map_eq_map, Option.map_map]
      simp only [hk, decide_true, if_true]
      rfl
    · simp [hk]

namespace ChannelMap

variable {m : ChannelMap} {azimuth : Float32}

/-! ## Speakers next to one another -/

/-- The speaker `b` follows `a` on the circle. -/
def Adjacent (m : ChannelMap) (a b : Speaker) : Prop :=
  ∃ i, m.speakers[i]? = some a ∧ m.speakers[(i + 1) % m.speakers.length]? = some b

/-- The search asks each speaker and its follower in turn. -/
theorem search_eq (azimuth : Float32) (first : Speaker) (l : List Speaker) :
    search azimuth first l = (l.zip (l.tail ++ [first])).findSome? fun p =>
      (between? azimuth p.1 p.2).map fun t => (p.1, p.2, t) := by
  fun_induction search azimuth first l with
  | case1 => rfl
  | case2 last =>
    rw [List.tail_cons, List.nil_append, List.zip_cons_cons, List.zip_nil_left, List.findSome?_cons]
    cases between? azimuth last first <;> rfl
  | case3 a b rest t h => simp [h]
  | case4 a b rest h ih => simp [h, ih]

theorem mem_zip_rotate {a b : Speaker} :
    (a, b) ∈ m.speakers.zip (m.speakers.rotate 1) ↔ m.Adjacent a b := by
  rw [List.mem_iff_getElem?, Adjacent]
  refine exists_congr fun i => ?_
  rw [List.getElem?_zip_eq_some]
  refine and_congr_right fun ha => ?_
  rw [List.getElem?_rotate (List.getElem?_eq_some_iff.mp ha).1]

/-- Either the azimuth lies between no two speakers that follow each other, or the search finds two
between which it does. -/
theorem search_cases {first : Speaker} {rest : List Speaker} (h : m.speakers = first :: rest)
    (azimuth : Float32) :
    search azimuth first (first :: rest) = none ∧
        (∀ a b, m.Adjacent a b → between? azimuth a b = none) ∨
      ∃ a b t, search azimuth first (first :: rest) = some (a, b, t) ∧
        m.Adjacent a b ∧ between? azimuth a b = some t := by
  have hpairs : (first :: rest).zip ((first :: rest).tail ++ [first])
      = m.speakers.zip (m.speakers.rotate 1) := by
    rw [h, List.rotate_cons_succ, List.rotate_zero, List.tail_cons]
  rw [search_eq, hpairs]
  cases hfind : (m.speakers.zip (m.speakers.rotate 1)).findSome? fun p =>
    (between? azimuth p.1 p.2).map fun t => (p.1, p.2, t) with
  | none =>
    refine .inl ⟨rfl, fun a b hadjacent => ?_⟩
    have := List.findSome?_eq_none_iff.mp hfind (a, b) (mem_zip_rotate.mpr hadjacent)
    exact Option.map_eq_none_iff.mp this
  | some found =>
    obtain ⟨⟨a, b⟩, hmem, hfound⟩ := List.exists_of_findSome?_eq_some hfind
    obtain ⟨t, hplace, rfl⟩ := Option.map_eq_some_iff.mp hfound
    exact .inr ⟨a, b, t, rfl, mem_zip_rotate.mp hmem, hplace⟩

/-- Speakers with outputs of their own that follow each other are not the same, if there are two. -/
theorem Adjacent.channel_ne {a b : Speaker} (h : m.Adjacent a b)
    (hnodup : (m.speakers.map Speaker.channel).Nodup) (htwo : 2 ≤ m.speakers.length) :
    a.channel ≠ b.channel := by
  obtain ⟨i, ha, hb⟩ := h
  have hi := (List.getElem?_eq_some_iff.mp ha).1
  have hnext : i ≠ (i + 1) % m.speakers.length := by
    obtain hlast | hinside := Nat.eq_or_lt_of_le (Nat.succ_le_of_lt hi)
    · rw [show i + 1 = m.speakers.length from hlast, Nat.mod_self]
      omega
    · rw [Nat.mod_eq_of_lt hinside]
      omega
  intro hsame
  refine hnext ((List.getElem?_inj (by rwa [List.length_map]) hnodup).mp ?_)
  rw [List.getElem?_map, List.getElem?_map, ha, hb, Option.map_some, Option.map_some, hsame]

/-! ## Speakers around an azimuth -/

section Exact

open Single

variable (hazimuth : Exact azimuth) (hspeakers : ∀ s ∈ m.speakers, Exact s.angle)

/-- What does not grow from one index to the next on a circle is always the same. -/
theorem constant_of_cycle {n : Nat} {g : Nat → Int} (h : ∀ i < n, g ((i + 1) % n) ≤ g i) :
    ∀ i < n, g i = g 0 := by
  have hdown : ∀ i j, i + j < n → g (i + j) ≤ g i := by
    intro i j
    induction j with
    | zero => exact fun _ => Int.le_refl _
    | succ j ih =>
      intro hlt
      have hnext := h (i + j) (by omega)
      rw [Nat.mod_eq_of_lt (show i + j + 1 < n from hlt)] at hnext
      exact Int.le_trans hnext (ih (by omega))
  intro i hi
  have hlast := h (n - 1) (by omega)
  rw [Nat.sub_add_cancel (by omega), Nat.mod_self] at hlast
  have hfirst := hdown 0 i (by omega)
  have hend := hdown i (n - 1 - i) (by omega)
  rw [Nat.zero_add] at hfirst
  rw [show i + (n - 1 - i) = n - 1 by omega] at hend
  omega

/-- How far it is from a speaker to the azimuth, on the way round. -/
def gap (azimuth : Float32) (s : Speaker) : Int := (place azimuth - place s.angle) % turn

include hazimuth

/-- If the azimuth does not lie between two speakers, the second comes on the way from the first. -/
theorem gap_le {a b : Speaker} (ha : Exact a.angle) (hb : Exact b.angle)
    (hnone : between? azimuth a b = none) : gap azimuth b ≤ gap azimuth a := by
  have hle : (place b.angle - place a.angle) % turn ≤ gap azimuth a := by
    refine Int.not_lt.mp fun hlt => ?_
    have hsome := (isSome_between?_iff hazimuth ha hb).mpr hlt
    rw [hnone] at hsome
    cases hsome
  have hlow := (emod_turn_bounds (place b.angle - place a.angle)).1
  have hhigh := (emod_turn_bounds (place azimuth - place a.angle)).2
  have hgap : gap azimuth b = gap azimuth a - (place b.angle - place a.angle) % turn := by
    have hmod : gap azimuth b
        = (gap azimuth a - (place b.angle - place a.angle) % turn) % turn := by
      rw [gap, gap, ← Int.sub_emod]
      congr 1
      omega
    rw [hmod]
    unfold gap at hle ⊢
    exact Int.emod_eq_of_lt (by omega) (by omega)
  omega

include hspeakers

/-- **The azimuth lies between two speakers that follow each other**, unless all stand at one
angle. -/
theorem exists_between {s s' : Speaker} (hs : s ∈ m.speakers) (hs' : s' ∈ m.speakers)
    (hne : (place s.angle - place s'.angle) % turn ≠ 0) :
    ∃ a b, m.Adjacent a b ∧ (between? azimuth a b).isSome = true := by
  by_contra hoff
  have hnone : ∀ a b, m.Adjacent a b → between? azimuth a b = none := fun a b hadjacent =>
    Option.not_isSome_iff_eq_none.mp fun hsome => hoff ⟨a, b, hadjacent, hsome⟩
  have hget : ∀ i, i < m.speakers.length → m.speakers[i]? = some (m.speakers.getD i s) :=
    fun i hi => by rw [List.getD_eq_getElem?_getD, List.getElem?_eq_getElem hi, Option.getD_some]
  have hsame := constant_of_cycle (g := fun i => gap azimuth (m.speakers.getD i s)) fun i hi => by
    have hnext := hget _ (Nat.mod_lt (i + 1) (Nat.zero_lt_of_lt hi))
    exact gap_le hazimuth (hspeakers _ (List.mem_of_getElem? (hget i hi)))
      (hspeakers _ (List.mem_of_getElem? hnext)) (hnone _ _ ⟨i, hget i hi, hnext⟩)
  have hgap : ∀ x ∈ m.speakers, gap azimuth x = gap azimuth (m.speakers.getD 0 s) := by
    intro x hx
    obtain ⟨i, hi⟩ := List.mem_iff_getElem?.mp hx
    have hlt := (List.getElem?_eq_some_iff.mp hi).1
    rw [← hsame i hlt, Option.some.inj ((hget i hlt).symm.trans hi)]
  have heq : gap azimuth s' = gap azimuth s := (hgap s' hs').trans (hgap s hs).symm
  have hzero := Int.emod_eq_emod_iff_emod_sub_eq_zero.mp heq
  have hsub : place azimuth - place s'.angle - (place azimuth - place s.angle)
      = place s.angle - place s'.angle := by omega
  exact hne (hsub ▸ hzero)

end Exact

/-! ## Who receives signal -/

/-- The outputs that receive signal around a wrapped azimuth, with their gains. -/
inductive Shares (m : ChannelMap) (azimuth : Float32) : List (Nat × Float32) → Prop
  /-- Without speakers no output does. -/
  | nobody (hnone : m.speakers = []) : Shares m azimuth []
  /-- All goes to the first speaker, if it is the only one or the azimuth lies between no two. -/
  | one {s : Speaker} {rest : List Speaker} (hfirst : m.speakers = s :: rest)
      (halone : rest = [] ∨ ∀ a b, m.Adjacent a b → between? azimuth a b = none) :
      Shares m azimuth [(s.channel, (0 * Single.quarterTurn).cos)]
  /-- It is shared by two neighbours between which the azimuth lies. -/
  | two {a b : Speaker} {t : Float32} (hadjacent : m.Adjacent a b)
      (hplace : between? azimuth a b = some t) (hne : a.channel ≠ b.channel) :
      Shares m azimuth [(a.channel, (t * Single.quarterTurn).cos),
        (b.channel, (t * Single.quarterTurn).sin)]

/-- **Signal goes to one speaker, or to two neighbours between which the azimuth lies.** -/
theorem shares_gains (hnodup : (m.speakers.map Speaker.channel).Nodup) (azimuth : Float32) :
    m.Shares (Single.wrapDegrees azimuth) (m.gains azimuth) := by
  rw [gains]
  generalize Single.wrapDegrees azimuth = azimuth
  match h : m.speakers with
  | [] =>
    rw [bracket, h]
    exact .nobody h
  | [only] =>
    rw [bracket, h]
    simp only [ne_eq, not_true_eq_false, if_false]
    exact .one h (.inl rfl)
  | first :: second :: rest =>
    rw [bracket, h]
    dsimp only
    obtain ⟨hnone, hoff⟩ | ⟨a, b, t, hsome, hadjacent, hplace⟩ := search_cases h azimuth
    · rw [hnone]
      simp only [Option.getD_none, ne_eq, not_true_eq_false, if_false]
      exact .one h (.inr hoff)
    · have hne := hadjacent.channel_ne hnodup (by rw [h]; simp)
      rw [hsome]
      simp only [Option.getD_some, ne_eq, hne.symm, not_false_eq_true, if_true]
      exact .two hadjacent hplace hne

/-- **Two neighbours around the azimuth receive signal**, if angles are exact and not all speakers
stand at one. -/
theorem gains_of_exact (hnodup : (m.speakers.map Speaker.channel).Nodup)
    (hazimuth : Single.Exact (Single.wrapDegrees azimuth))
    (hspeakers : ∀ s ∈ m.speakers, Single.Exact s.angle) {s s' : Speaker} (hs : s ∈ m.speakers)
    (hs' : s' ∈ m.speakers)
    (hne : (Single.place s.angle - Single.place s'.angle) % Single.turn ≠ 0) :
    ∃ a b t, m.Adjacent a b ∧
      gap (Single.wrapDegrees azimuth) a
        < (Single.place b.angle - Single.place a.angle) % Single.turn ∧
      m.gains azimuth = [(a.channel, (t * Single.quarterTurn).cos),
        (b.channel, (t * Single.quarterTurn).sin)] := by
  obtain ⟨a', b', hadjacent', hsome⟩ := exists_between hazimuth hspeakers hs hs' hne
  have hshares := shares_gains hnodup azimuth
  generalize m.gains azimuth = gains at hshares
  cases hshares with
  | nobody hnone =>
    rw [hnone] at hs
    cases hs
  | one hfirst halone =>
    obtain rfl | hoff := halone
    · rw [hfirst] at hs hs'
      rw [List.mem_singleton.mp hs, List.mem_singleton.mp hs', Int.sub_self, Int.zero_emod] at hne
      exact absurd rfl hne
    · rw [hoff _ _ hadjacent'] at hsome
      cases hsome
  | @two a b t hadjacent hplace _ =>
    obtain ⟨i, ha, hb⟩ := hadjacent
    have haexact := hspeakers _ (List.mem_of_getElem? ha)
    have hbexact := hspeakers _ (List.mem_of_getElem? hb)
    exact ⟨a, b, t, ⟨i, ha, hb⟩, (isSome_between?_iff hazimuth haexact hbexact).mp
      (Option.isSome_of_eq_some hplace), rfl⟩

/-! ## What the outputs hold -/

/-- What an output receives for a sample of the input: one product added to silence, if it has a
gain. -/
def received (gains : List (Nat × Float32)) (channel : Nat) (x : Float32) : Float32 :=
  (gains.find? (·.1 = channel)).elim 0 fun g => 0 + g.2 * x

theorem Shares.nodup {gains : List (Nat × Float32)} (h : m.Shares azimuth gains) :
    (gains.map Prod.fst).Nodup := by
  cases h with
  | nobody => exact .nil
  | one => exact List.nodup_singleton _
  | two _ _ hne => exact List.nodup_cons.mpr ⟨by simpa using hne, List.nodup_singleton _⟩

theorem Shares.driven {gains : List (Nat × Float32)} (h : m.Shares azimuth gains) :
    ∀ g ∈ gains, ∃ s ∈ m.speakers, s.channel = g.1 := by
  cases h with
  | nobody => exact fun _ hg => absurd hg List.not_mem_nil
  | one hfirst => simp [hfirst]
  | two hadjacent =>
    obtain ⟨i, ha, hb⟩ := hadjacent
    have ha := List.mem_of_getElem? ha
    have hb := List.mem_of_getElem? hb
    rintro g hg
    obtain rfl | hg := List.mem_cons.mp hg
    · exact ⟨_, ha, rfl⟩
    · cases List.mem_singleton.mp hg
      exact ⟨_, hb, rfl⟩

/-- Panning changes the outputs that receive signal, each of them once. -/
theorem getElem?_pan (hnodup : (m.speakers.map Speaker.channel).Nodup) (azimuth : Float32)
    (input : Array Float32) (outputs : List Block) (k : Nat) :
    (m.pan azimuth input outputs)[k]? = outputs[k]?.map fun out =>
      ((m.gains azimuth).find? (·.1 = k)).elim out fun g => out.accumulate g.2 input :=
  getElem?_foldl_modify Prod.fst (fun g (out : Block) => out.accumulate g.2 input)
    (shares_gains hnodup azimuth).nodup outputs k

/-- What is received, said of a whole block. -/
theorem getElem_received (gains : List (Nat × Float32)) (k : Nat) (input : Block) {i : Nat}
    (hi : i < blockSize) :
    ((gains.find? (·.1 = k)).elim Block.silent fun g =>
      Block.silent.accumulate g.2 input.toArray)[i] = received gains k input[i] := by
  rw [received]
  cases gains.find? (·.1 = k) with
  | none => exact Block.getElem_silent hi
  | some g =>
    rw [Option.elim_some, Option.elim_some, Block.getElem_accumulate _ _ _ hi,
      Block.getElem_silent hi]

/-- An output without a speaker receives nothing. -/
theorem Shares.find?_eq_none {gains : List (Nat × Float32)} (h : m.Shares azimuth gains) {k : Nat}
    (hk : ∀ s ∈ m.speakers, s.channel ≠ k) : gains.find? (·.1 = k) = none := by
  refine List.find?_eq_none.mpr fun g hg => ?_
  obtain ⟨s, hs, hchannel⟩ := h.driven g hg
  rw [← hchannel, decide_eq_true_eq]
  exact hk s hs

/-- One speaker alone receives everything. -/
theorem gains_of_only {s : Speaker} (h : m.speakers = [s]) (azimuth : Float32) :
    m.gains azimuth = [(s.channel, (0 * Single.quarterTurn).cos)] := by
  rw [gains, bracket, h]
  simp only [ne_eq, not_true_eq_false, if_false]

/-! ## The speakers of a map that was built -/

/-- They drive the channels that are not kept free. -/
theorem map_channel_build (angles : List UInt32) (skipCenter skipLfe : Bool) :
    ((build angles skipCenter skipLfe).speakers.map Speaker.channel).Perm
      (free angles.length skipCenter skipLfe) :=
  map_channel_assign (length_free ..) ▸
    (sort_stablySorts (assign (free angles.length skipCenter skipLfe) angles)).perm.map _

theorem nodup_build (angles : List UInt32) (skipCenter skipLfe : Bool) :
    ((build angles skipCenter skipLfe).speakers.map Speaker.channel).Nodup :=
  (map_channel_build ..).nodup_iff.mpr (nodup_free ..)

/-- They leave the others to themselves. -/
theorem build_channel_ne {angles : List UInt32} {skipCenter skipLfe : Bool} {k : Nat}
    (hk : reserved angles.length skipCenter skipLfe k = true ∨
      (build angles skipCenter skipLfe).outputs ≤ k) :
    ∀ s ∈ (build angles skipCenter skipLfe).speakers, s.channel ≠ k := by
  rintro s hs rfl
  obtain ⟨hlt, hfree⟩ := mem_free.mp ((map_channel_build ..).mem_iff.mp (List.mem_map_of_mem hs))
  obtain hreserved | hbehind := hk
  · exact Bool.false_ne_true (hfree.symm.trans hreserved)
  · exact Nat.not_le_of_lt hlt hbehind

end ChannelMap

namespace AmplitudePanner

open ChannelMap

variable {m : ChannelMap}

/-- Blending changes the outputs that speakers drive, each of them once. -/
theorem getElem?_blend (hnodup : (m.speakers.map Speaker.channel).Nodup) (share : Float32)
    (input : Block) (outputs : List Block) (k : Nat) :
    (m.speakers.foldl (blend share input) outputs)[k]? = outputs[k]?.map fun out =>
      (m.speakers.find? (·.channel = k)).elim out fun _ =>
        (out.scale (1 - share)).accumulate share input.toArray :=
  getElem?_foldl_modify Speaker.channel
    (fun _ (out : Block) => (out.scale (1 - share)).accumulate share input.toArray) hnodup outputs k

/-- What an output holds after a block: it is panned into, and then blended. -/
theorem getElem?_process {p : AmplitudePanner}
    (hnodup : (p.map.speakers.map Speaker.channel).Nodup) (props : Properties) (input : Block)
    (more outputs : List Block) (k : Nat) :
    (p.process props (input :: more) outputs)[k]? = outputs[k]?.map fun _ =>
      let panned := ((p.map.gains (props.float .azimuth)).find? (·.1 = k)).elim Block.silent
        fun g => Block.silent.accumulate g.2 input.toArray
      if props.float .passthrough == 0 then panned
      else (p.map.speakers.find? (·.channel = k)).elim panned fun _ =>
        (panned.scale (1 - props.float .passthrough)).accumulate (props.float .passthrough)
          input.toArray := by
  rw [process]
  dsimp only
  split
  · rw [getElem?_pan hnodup, List.getElem?_map, Option.map_map]
    rfl
  · rw [getElem?_blend hnodup, getElem?_pan hnodup, List.getElem?_map, Option.map_map,
      Option.map_map]
    rfl

/-- What the outputs `outs` of a panner over the map `m` hold after a block with the input `input`,
of which `share` is passed through. -/
structure Pans (m : ChannelMap) (azimuth share : Float32) (input : Block) (outs : List Block) :
    Prop where
  /-- One speaker receives signal, or two that follow each other. -/
  shares : m.Shares (Single.wrapDegrees azimuth) (m.gains azimuth)
  /-- The only speaker always does. -/
  only (s : Speaker) (hs : m.speakers = [s]) :
    m.gains azimuth = [(s.channel, (0 * Single.quarterTurn).cos)]
  /-- An output that no speaker drives is silent. -/
  undriven (k : Nat) (out : Block) (hout : outs[k]? = some out)
    (hnone : ∀ s ∈ m.speakers, s.channel ≠ k) : out = Block.silent
  /-- With nothing passed through, an output holds what it receives. -/
  dry (hshare : (share == 0) = true) (k : Nat) (out : Block) (hout : outs[k]? = some out) (i : Nat)
    (hi : i < blockSize) : out[i] = received (m.gains azimuth) k input[i]
  /-- Otherwise the output of a speaker holds a blend of this and the input. -/
  blended (hshare : (share == 0) = false) (s : Speaker) (hs : s ∈ m.speakers) (out : Block)
    (hout : outs[s.channel]? = some out) (i : Nat) (hi : i < blockSize) :
    out[i] = (1 - share) * received (m.gains azimuth) s.channel input[i] + share * input[i]

theorem pans_of_nodup {p : AmplitudePanner} (hnodup : (p.map.speakers.map Speaker.channel).Nodup)
    (props : Properties) (input : Block) (more outputs : List Block) :
    Pans p.map (props.float .azimuth) (props.float .passthrough) input
      (p.process props (input :: more) outputs) := by
  have hshares := shares_gains hnodup (props.float .azimuth)
  constructor
  case shares => exact hshares
  case only => exact fun s hs => gains_of_only hs _
  case undriven =>
    intro k out hout hnone
    have hspeakers : p.map.speakers.find? (·.channel = k) = none :=
      List.find?_eq_none.mpr fun s hs => by simpa using hnone s hs
    rw [getElem?_process hnodup, hshares.find?_eq_none hnone, hspeakers] at hout
    obtain ⟨_, -, rfl⟩ := Option.map_eq_some_iff.mp hout
    simp only [Option.elim_none, ite_self]
  case dry =>
    intro hshare k out hout i hi
    rw [getElem?_process hnodup] at hout
    obtain ⟨_, -, rfl⟩ := Option.map_eq_some_iff.mp hout
    rw [← getElem_received _ _ _ hi]
    simp only [hshare, if_true]
  case blended =>
    intro hshare s hs out hout i hi
    obtain ⟨s', hfind⟩ : ∃ s', p.map.speakers.find? (·.channel = s.channel) = some s' :=
      Option.isSome_iff_exists.mp (List.find?_isSome.mpr ⟨s, hs, decide_eq_true rfl⟩)
    rw [getElem?_process hnodup, hfind] at hout
    obtain ⟨_, -, rfl⟩ := Option.map_eq_some_iff.mp hout
    rw [← getElem_received _ _ _ hi]
    simp only [hshare, Bool.false_eq_true, if_false, Option.elim_some,
      Block.getElem_accumulate _ _ _ hi, Block.getElem_scale _ _ hi]

/-- **A panner is heard from the speakers around its azimuth, and nowhere else.**  With a map that
was built, each output that a speaker drives holds what it receives, blended with the input once if
some of it is passed through; a channel that is kept free is silent, and so is what lies behind the
outputs of the map.  Without an input all outputs are. -/
theorem process_pans {p : AmplitudePanner} {angles : List UInt32} {skipCenter skipLfe : Bool}
    (hp : p.map = build angles skipCenter skipLfe) (props : Properties)
    (inputs outputs : List Block) :
    (p.process props inputs outputs).length = outputs.length ∧
    (∀ input more, inputs = input :: more →
      Pans p.map (props.float .azimuth) (props.float .passthrough) input
        (p.process props inputs outputs)) ∧
    ∀ k out, (p.process props inputs outputs)[k]? = some out →
      inputs = [] ∨ reserved angles.length skipCenter skipLfe k = true ∨ p.map.outputs ≤ k →
      out = Block.silent := by
  have hnodup : (p.map.speakers.map Speaker.channel).Nodup := hp ▸ nodup_build ..
  refine ⟨p.length_process _ _ _, ?_, fun k out hout hk => ?_⟩
  · rintro input more rfl
    exact pans_of_nodup hnodup props input more outputs
  · cases inputs with
    | nil =>
      rw [process, List.getElem?_map] at hout
      obtain ⟨_, -, rfl⟩ := Option.map_eq_some_iff.mp hout
      rfl
    | cons input more =>
      refine (pans_of_nodup hnodup props input more outputs).undriven k out hout ?_
      rw [hp] at hk ⊢
      exact build_channel_ne (hk.resolve_left (List.cons_ne_nil _ _))

/-- Three speakers to the left, to the right and behind: from the front, the left one and the right
one are half way each, and the output behind is silent, as are the two that are kept free. -/
theorem process_pans_threeSpeakers :
    let angles := [(-90 : Float32).toBits, (90 : Float32).toBits, (180 : Float32).toBits]
    let p : AmplitudePanner := ⟨build angles true true, none⟩
    let outputs := p.process properties [Vector.replicate blockSize 1]
      (List.replicate 5 Block.silent)
    outputs.length = 5 ∧ outputs[2]? = some Block.silent ∧ outputs[3]? = some Block.silent ∧
    (∀ left, outputs[0]? = some left →
      ∀ i (hi : i < blockSize), left[i] = 0 + (0.5 * Single.quarterTurn).cos * 1) ∧
    (∀ right, outputs[1]? = some right →
      ∀ i (hi : i < blockSize), right[i] = 0 + (0.5 * Single.quarterTurn).sin * 1) ∧
    ∀ behind, outputs[4]? = some behind → ∀ i (hi : i < blockSize), behind[i] = 0 := by
  intro angles p outputs
  obtain ⟨hlength, hpans, hsilent⟩ := process_pans (p := p) (rfl : p.map = build angles true true)
    properties [Vector.replicate blockSize 1] (List.replicate 5 Block.silent)
  have hlength : outputs.length = 5 := hlength
  have hbracket : (build angles true true).bracket
      (Single.wrapDegrees (properties.float .azimuth))
        = some (⟨(270 : Float32).toBits, 0⟩, ⟨(90 : Float32).toBits, 1⟩, 0.5) := by
    decide +kernel
  have hgains : p.map.gains (properties.float .azimuth)
      = [(0, (0.5 * Single.quarterTurn).cos), (1, (0.5 * Single.quarterTurn).sin)] := by
    rw [gains, hbracket]
    rfl
  have hdry := (hpans _ _ rfl).dry rfl
  rw [hgains] at hdry
  refine ⟨hlength, ?_, ?_, ?_, ?_, ?_⟩
  · have h₂ : 2 < outputs.length := hlength ▸ by decide
    rw [List.getElem?_eq_getElem h₂]
    exact congrArg some (hsilent 2 _ (List.getElem?_eq_getElem h₂) (.inr (.inl rfl)))
  · have h₃ : 3 < outputs.length := hlength ▸ by decide
    rw [List.getElem?_eq_getElem h₃]
    exact congrArg some (hsilent 3 _ (List.getElem?_eq_getElem h₃) (.inr (.inl rfl)))
  · intro left hleft i hi
    rw [hdry 0 left hleft i hi, Vector.getElem_replicate]
    rfl
  · intro right hright i hi
    rw [hdry 1 right hright i hi, Vector.getElem_replicate]
    rfl
  · intro behind hbehind i hi
    exact hdry 4 behind hbehind i hi

end AmplitudePanner
end SpatialAudio
