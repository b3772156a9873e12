import SpatialAudio.Arithmetic.Single
import SpatialAudio.Block

/-!
# Panning/ChannelMap — loudspeakers around a listener, and panning between them

`ChannelMap.build` gives every angle an output channel, keeping the third and fourth channel free if
asked to, and sorts the speakers by angle; angles are kept as words, so that all of them have a place
in the order.  `ChannelMap.bracket` finds the two neighbouring speakers
around an azimuth; `ChannelMap.pan` shares a signal between them at constant power.
-/

namespace SpatialAudio

/-- A loudspeaker: the word of its angle within one turn, and the output it is connected to. -/
structure Speaker where
  word : UInt32
  channel : Nat
deriving Repr, DecidableEq

/-- The angle of a speaker in degrees. -/
def Speaker.angle (s : Speaker) : Float32 := Float32.ofBits s.word

/-- Loudspeakers in the order of their angles, and how many outputs they are spread over. -/
structure ChannelMap where
  speakers : List Speaker
  outputs : Nat
deriving Repr, DecidableEq

namespace ChannelMap

/-- No speakers. -/
def empty : ChannelMap := ⟨[], 0⟩

/-! ## Building a map -/

/-- Which output channels are kept free, for `count` speakers: none unless there are more than
two. -/
def reserved (count : Nat) (skipCenter skipLfe : Bool) (channel : Nat) : Bool :=
  2 < count && ((channel = 2 && skipCenter) || (channel = 3 && skipLfe))

/-- How many outputs `count` speakers are spread over. -/
def outputCount (count : Nat) (skipCenter skipLfe : Bool) : Nat :=
  count + if 2 < count then skipCenter.toNat + skipLfe.toNat else 0

/-- Gives the angles, in turn, the channels that are not kept free. -/
def assign (free : List Nat) (angles : List UInt32) : List Speaker :=
  List.zipWith (fun channel angle => ⟨Single.wrapWord angle, channel⟩) free angles

/-- Puts a speaker behind those of smaller or equal angle. -/
def insert (s : Speaker) : List Speaker → List Speaker
  | [] => [s]
  | head :: rest =>
    if Single.rank s.word < Single.rank head.word then s :: head :: rest
    else head :: insert s rest

/-- Speakers in the order of their angles; equal angles stay in order. -/
def sort (speakers : List Speaker) : List Speaker := speakers.foldl (fun l s => insert s l) []

/-- Lays the angles of the given words out over output channels. -/
def build (angles : List UInt32) (skipCenter skipLfe : Bool) : ChannelMap :=
  let outputs := outputCount angles.length skipCenter skipLfe
  let free := (List.range outputs).filter fun c => !reserved angles.length skipCenter skipLfe c
  ⟨sort (assign free angles), outputs⟩

/-! ## Panning -/

/-- The place of `azimuth` between two speakers, from `0` at the first up to `1` at the second, if
it lies there. -/
def between? (azimuth : Float32) (a b : Speaker) : Option Float32 :=
  let span := Single.wrapDegrees (b.angle - a.angle)
  let offset := Single.wrapDegrees (azimuth - a.angle)
  if 0 < span ∧ offset < span then some (offset / span) else none

/-- The first of the given speakers between which and its follower `azimuth` lies; the last of them
is followed by `first`. -/
def search (azimuth : Float32) (first : Speaker) :
    List Speaker → Option (Speaker × Speaker × Float32)
  | [] => none
  | [last] => (between? azimuth last first).map fun t => (last, first, t)
  | a :: b :: rest =>
    match between? azimuth a b with
    | some t => some (a, b, t)
    | none => search azimuth first (b :: rest)

/-- The two speakers around a wrapped azimuth and the place between them. -/
def bracket (m : ChannelMap) (azimuth : Float32) : Option (Speaker × Speaker × Float32) :=
  match m.speakers with
  | [] => none
  | [only] => some (only, only, 0)
  | first :: rest => some ((search azimuth first (first :: rest)).getD (first, first, 0))

/-- The outputs that receive signal, each with its gain. -/
def gains (m : ChannelMap) (azimuth : Float32) : List (Nat × Float32) :=
  match m.bracket (Single.wrapDegrees azimuth) with
  | none => []
  | some (a, b, t) =>
    (a.channel, (t * Single.quarterTurn).cos)
      :: if b.channel ≠ a.channel then [(b.channel, (t * Single.quarterTurn).sin)] else []

/-- Pans `input` into silent outputs. -/
def pan (m : ChannelMap) (azimuth : Float32) (input : Array Float32) (outputs : List Block) :
    List Block :=
  (m.gains azimuth).foldl
    (fun outs (channel, gain) => outs.modify channel (·.accumulate gain input)) outputs

/-! ## Standard maps -/

/-- The angles of the standard map with the given number of outputs. -/
def standard? : (channels : Nat) → Option (List Float32)
  | 2 => some [-90, 90]
  | 6 => some [-22.5, 22.5, -110, 110]
  | 8 => some [-22.5, 22.5, -150, 150, -110, 110]
  | _ => none

end ChannelMap

end SpatialAudio
