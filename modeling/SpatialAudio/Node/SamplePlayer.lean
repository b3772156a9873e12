import SpatialAudio.Arithmetic.Single
import SpatialAudio.Block
import SpatialAudio.Property.Properties

/-!
# Node/SamplePlayer — playing samples held in memory

`fill` copies the longest runs it can; at the end of the samples it starts again when looping and is
silent otherwise.  `step` is the same playback, one sample at a time.
-/

namespace SpatialAudio

/-- A player of mono samples. -/
structure SamplePlayer where
  samples : Array Float32
  /-- The rate that turns frames into seconds. -/
  rate : Nat
  /-- The next frame to play. -/
  position : Nat

namespace SamplePlayer

/-- A player at the start of its samples. -/
def new (samples : Array Float32) (rate : Nat) : SamplePlayer := ⟨samples, max rate 1, 0⟩

/-- How long all samples last, in seconds. -/
def duration (p : SamplePlayer) : Float := Double.ofCount p.samples.size / Double.ofCount p.rate

/-- How much of them was played, in seconds. -/
def elapsed (p : SamplePlayer) : Float := Double.ofCount p.position / Double.ofCount p.rate

/-- Nothing is left to play. -/
def finished (p : SamplePlayer) : Bool := p.samples.size ≤ p.position

/-- A player can loop and seek. -/
def properties : Properties :=
  (Properties.standard.insert .looping (.bool "looping" false)).insert
    .position (.float "position" 0 0 Single.greatest)

/-! ## Playback -/

/-- One sample of playback: the sample and the position behind it. -/
def step (samples : Array Float32) (looping : Bool) (position : Nat) : Float32 × Nat :=
  if position < samples.size then (samples.getD position 0, position + 1)
  else if looping && 0 < samples.size then (samples.getD 0 0, 1)
  else (0, position)

/-- The next `room` samples and the position behind them, copied in runs.  Every run is at least one
sample long, so `room` runs suffice. -/
def fill (samples : Array Float32) (looping : Bool) :
    (runs room position : Nat) → List Float32 × Nat
  | 0, room, position => (List.replicate room 0, position)
  | runs + 1, room, position =>
    if room = 0 then ([], position)
    else if samples.size ≤ position && !(looping && 0 < samples.size) then
      (List.replicate room 0, position)
    else
      let start := if samples.size ≤ position then 0 else position
      let n := min room (samples.size - start)
      let (rest, stop) := fill samples looping runs (room - n) (start + n)
      ((samples.extract start (start + n)).toList ++ rest, stop)

/-- The frame at a position in seconds. -/
def frameAt (p : SamplePlayer) (rate : Nat) (seconds : Float32) : Nat :=
  min (Double.floorCount (Double.ofSingle seconds * Double.ofCount rate)) p.samples.size

/-- Seeks if the position was set. -/
def seek (p : SamplePlayer) (rate : Nat) (props : Properties) : SamplePlayer :=
  if props.wasModified .position then
    { p with position := p.frameAt rate (props.float .position) }
  else p

/-- The first output carries the samples; the others keep what they hold. -/
def process (p : SamplePlayer) (rate : Nat) (props : Properties) (outputs : List Block) :
    SamplePlayer × List Block :=
  let p := p.seek rate props
  match outputs with
  | [] => (p, [])
  | _ :: rest =>
    let (samples, position) := fill p.samples (props.flag .looping) blockSize blockSize p.position
    ({ p with position }, Block.ofList samples :: rest)

end SamplePlayer

end SpatialAudio
