import SpatialAudio.Node.Kind
import SpatialAudio.Proofs.Setting

/-!
# Proofs/Ranges — what the ranges of properties admit

`ValueRange.Admits` says which values are of the type of a range and lie in it, and `validate` lets
exactly these pass (`validate_eq_ok`).  Every property has one range, whichever kind of node carries
it (`PropertyId.range`), and its bounds are finite; so what it admits is finite too
(`PropertyId.proper_of_admits`).  All kinds of nodes start with properties of these ranges, at
defaults that they admit (`NodeKind.initial_properties`).
-/

namespace SpatialAudio

/-! ## Finite numbers -/

namespace Single

open Float.Model in
/-- What lies between finite numbers is a finite number. -/
theorem isFinite_of_unpacked {lo hi v : UnpackedFloat} (hlo : lo.isFinite) (hhi : hi.isFinite)
    (h : lo.le v) (h' : v.le hi) : v.isFinite := by
  cases v with
  | zero s => rfl
  | finite s m e hm => rfl
  | notANumber => cases lo <;> cases h
  | infinity s =>
    cases s with
    | positive =>
      cases hi with
      | infinity s => cases hhi
      | _ => cases h'
    | negative =>
      cases lo with
      | infinity s => cases hlo
      | _ => cases h

theorem isFinite_of_le {lo hi v : Float32} (hlo : lo.isFinite) (hhi : hi.isFinite) (h : lo ≤ v)
    (h' : v ≤ hi) : v.isFinite := by
  have hmodel : lo.toModel.unpack.le v.toModel.unpack := of_decide_eq_true h
  have hmodel' : v.toModel.unpack.le hi.toModel.unpack := of_decide_eq_true h'
  exact isFinite_of_unpacked hlo hhi hmodel hmodel'

end Single

/-- No number in the value is infinite, and none is missing. -/
def PropertyValue.Finite : PropertyValue → Prop
  | int _ => True
  | float v => v.isFinite = true
  | floatArray vs => ∀ v ∈ vs, v.isFinite = true

/-! ## Ranges -/

namespace ValueRange

/-- The type of the values in a range. -/
def type : ValueRange → PropertyType
  | int .. => .int
  | float .. => .float
  | floatArray .. => .floatArray

/-- The value is of the type of the range and lies in it. -/
def Admits : ValueRange → PropertyValue → Prop
  | int min max, .int v => min ≤ v ∧ v ≤ max
  | float min max, .float v => min ≤ v ∧ v ≤ max
  | floatArray min max minLength maxLength, .floatArray vs =>
    minLength ≤ vs.length ∧ vs.length ≤ maxLength ∧ ∀ v ∈ vs, min ≤ v ∧ v ≤ max
  | _, _ => False

instance : (r : ValueRange) → (v : PropertyValue) → Decidable (r.Admits v)
  | int _ _, .int _ => inferInstanceAs (Decidable (_ ∧ _))
  | float _ _, .float _ => inferInstanceAs (Decidable (_ ∧ _))
  | floatArray _ _ _ _, .floatArray _ => inferInstanceAs (Decidable (_ ∧ _ ∧ _))
  | int _ _, .float _ | int _ _, .floatArray _ | float _ _, .int _ | float _ _, .floatArray _
  | floatArray _ _ _ _, .int _ | floatArray _ _ _ _, .float _ => .isFalse id

/-- The bounds of a range are finite. -/
def Bounded : ValueRange → Prop
  | int _ _ => True
  | float min max | floatArray min max _ _ => min.isFinite = true ∧ max.isFinite = true

variable {r : ValueRange} {v : PropertyValue}

theorem type_of_admits (h : r.Admits v) : v.type = r.type := by
  cases r <;> cases v <;> first | rfl | exact absurd h id

theorem Bounded.finite (hr : r.Bounded) (h : r.Admits v) : v.Finite := by
  cases r <;> cases v
  case int.int => trivial
  case float.float => exact Single.isFinite_of_le hr.1 hr.2 h.1 h.2
  case floatArray.floatArray =>
    exact fun v hv => Single.isFinite_of_le hr.1 hr.2 (h.2.2 v hv).1 (h.2.2 v hv).2
  all_goals exact absurd h id

end ValueRange

namespace Property

variable {x : Property} {p : PropertyId} {v : PropertyValue}

theorem checkFloat_eq_ok {min max a : Float32} :
    checkFloat p min max a = .ok () ↔ min ≤ a ∧ a ≤ max := by
  rw [checkFloat]
  split
  · next h => exact ⟨fun _ => h, fun _ => rfl⟩
  · next h => exact ⟨nofun, fun h' => absurd h' h⟩

/-- **Validation lets exactly the values pass that the range admits.** -/
theorem validate_eq_ok : x.validate p v = .ok () ↔ x.range.Admits v := by
  unfold validate
  cases x.range <;> cases v
  case int.int min max v =>
    change (if v < min ∨ max < v then _ else _) = _ ↔ min ≤ v ∧ v ≤ max
    split
    · exact ⟨nofun, fun h => by omega⟩
    · exact ⟨fun _ => by omega, fun _ => rfl⟩
  case float.float min max v => exact checkFloat_eq_ok
  case floatArray.floatArray min max minLength maxLength vs =>
    change (if vs.length < minLength ∨ maxLength < vs.length then _ else _) = _
      ↔ minLength ≤ vs.length ∧ vs.length ≤ maxLength ∧ ∀ v ∈ vs, min ≤ v ∧ v ≤ max
    simp only [← checkFloat_eq_ok (p := p)]
    split
    · exact ⟨nofun, fun h => by omega⟩
    · rw [forM_eq_ok]
      exact ⟨fun h => ⟨by omega, by omega, h⟩, fun h => h.2.2⟩
  all_goals exact ⟨nofun, fun h => absurd h id⟩

end Property

/-! ## The ranges of all properties -/

namespace PropertyId

/-- The range of a property, whichever node carries it. -/
def range : PropertyId → ValueRange
  | suspended | looping | shouldCrossfade | skipCenter | skipLfe => .int 0 1
  | mul | add | azimuth => .float (-Single.greatest) Single.greatest
  | frequency | position => .float 0 Single.greatest
  | elevation => .float (-90) 90
  | channelMap => .floatArray (-360) 360 1 14
  | passthrough => .float 0 1
  | strategy => .int 0 3

theorem bounded_range (p : PropertyId) : p.range.Bounded := by
  cases p <;> trivial

/-- A property that is `0` or `1`. -/
def IsFlag (p : PropertyId) : Prop := p.range = .int 0 1

theorem IsFlag.eq_of_admits {p : PropertyId} (hp : p.IsFlag) {v : PropertyValue}
    (h : p.range.Admits v) : v = .int 0 ∨ v = .int 1 := by
  rw [hp] at h
  cases v with
  | int v =>
    have hv : v = 0 ∨ v = 1 := by
      have hbounds : 0 ≤ v ∧ v ≤ 1 := h
      omega
    exact hv.imp (congrArg _) (congrArg _)
  | float _ => exact absurd h id
  | floatArray _ => exact absurd h id

/-- What a value of a property is. -/
structure Proper (p : PropertyId) (v : PropertyValue) : Prop where
  type : v.type = p.range.type
  admits : p.range.Admits v
  finite : v.Finite
  flag : p.IsFlag → v = .int 0 ∨ v = .int 1
  channelMap : p = .channelMap → ∃ angles, v = .floatArray angles ∧ 1 ≤ angles.length ∧
    angles.length ≤ 14 ∧ ∀ a ∈ angles, -360 ≤ a ∧ a ≤ 360
  strategy : p = .strategy → ∃ k, v = .int k ∧ 0 ≤ k ∧ k ≤ 3

/-- **A value that the range of a property admits is one of it.** -/
theorem proper_of_admits {p : PropertyId} {v : PropertyValue} (h : p.range.Admits v) :
    p.Proper v where
  type := ValueRange.type_of_admits h
  admits := h
  finite := p.bounded_range.finite h
  flag hp := hp.eq_of_admits h
  channelMap := by
    rintro rfl
    cases v with
    | floatArray angles => exact ⟨angles, rfl, h.1, h.2.1, h.2.2⟩
    | _ => exact absurd h id
  strategy := by
    rintro rfl
    cases v with
    | int k => exact ⟨k, rfl, h.1, h.2⟩
    | _ => exact absurd h id

end PropertyId

/-! ## Declarations -/

/-- What is declared of a property: its name, its default and its range. -/
def Property.declared (x : Property) : String × PropertyValue × ValueRange :=
  (x.name, x.default, x.range)

/-- What is declared of the properties of a node, in their order. -/
def Properties.declaration (ps : Properties) :
    List (PropertyId × String × PropertyValue × ValueRange) :=
  ps.entries.map fun e => (e.1, e.2.declared)

theorem Properties.mem_of_get? {ps : Properties} {p : PropertyId} {x : Property}
    (h : ps.get? p = some x) : (p, x) ∈ ps.entries := by
  obtain ⟨e, he, rfl⟩ := Option.map_eq_some_iff.mp h
  have hp : e.1 = p := by simpa using List.find?_some he
  rw [← hp]
  exact List.mem_of_find?_eq_some he

/-- Properties of their ranges, at defaults that these admit. -/
def Properties.Initial (ps : Properties) : Prop := ∀ e ∈ ps.entries,
  e.2.range = e.1.range ∧ e.1.range.Admits e.2.default ∧ e.2.value = e.2.default

instance (ps : Properties) : Decidable ps.Initial :=
  inferInstanceAs (Decidable (∀ e ∈ ps.entries, _))

namespace NodeKind

/-- **Every kind of node starts with properties of their ranges, at admitted defaults.** -/
theorem initial_properties : (k : NodeKind) → k.properties.Initial
  | sine _ => (by decide +kernel : Oscillator.properties.Initial)
  | samplePlayer _ => (by decide +kernel : SamplePlayer.properties.Initial)
  | gain | ringSink _ => (by decide +kernel : Properties.standard.Initial)
  | amplitudePanner _ => (by decide +kernel : AmplitudePanner.properties.Initial)
  | hrtfPanner _ => (by decide +kernel : HrtfPanner.properties.Initial)
  | multipanner _ => (by decide +kernel : Multipanner.properties.Initial)

/-- The properties that a node starts with depend on its type alone. -/
theorem properties_congr {k k' : NodeKind} (h : k.type = k'.type) : k.properties = k'.properties := by
  cases k <;> cases k' <;> first | rfl | cases h

end NodeKind

end SpatialAudio
