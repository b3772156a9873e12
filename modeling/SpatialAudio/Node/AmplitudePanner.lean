import SpatialAudio.Layout
import SpatialAudio.Panning.ChannelMap
import SpatialAudio.Property.Properties

/-!
# Node/AmplitudePanner — panning a mono signal over loudspeakers

The map in effect follows the properties in two steps: `stage` builds a new map and the layout it
needs, and `commit` puts it into effect once a layout was applied.
-/

namespace SpatialAudio

/-- A panner over loudspeakers. -/
structure AmplitudePanner where
  /-- The map in effect. -/
  map : ChannelMap
  /-- A map that waits for its layout. -/
  pending : Option ChannelMap

namespace AmplitudePanner

/-- A panner without speakers. -/
def new : AmplitudePanner := ⟨.empty, none⟩

/-- A panner has a direction, a list of speaker angles and a share of the dry signal. -/
def properties : Properties :=
  let direction := ((Properties.standard.insert .azimuth (.finite "azimuth" 0)).insert
    .elevation (.float "elevation" 0 (-90) 90)).insert
    .shouldCrossfade (.bool "should_crossfade" true)
  let speakers := ((direction.insert
    .channelMap (.floatArray "channel_map" [-90, 90] (-360) 360 1 14)).insert
    .skipCenter (.bool "skip_center" true)).insert .skipLfe (.bool "skip_lfe" true)
  speakers.insert .passthrough (.float "passthrough" 0 0 1)

/-- The properties that determine the map. -/
def mapProperties : List PropertyId := [.channelMap, .skipCenter, .skipLfe]

/-- The map that the properties describe. -/
def describedMap (props : Properties) : ChannelMap :=
  ChannelMap.build ((props.floatArray .channelMap).map Float32.toBits)
    (props.flag .skipCenter) (props.flag .skipLfe)

/-- Builds the map that the properties describe, and the layout it needs. -/
def stage (p : AmplitudePanner) (props : Properties) : AmplitudePanner × Layout :=
  let map := describedMap props
  ({ p with pending := some map }, .spread map.outputs)

/-- Puts the waiting map into effect. -/
def commit (p : AmplitudePanner) : AmplitudePanner :=
  match p.pending with
  | some map => ⟨map, none⟩
  | none => p

/-- Drops the waiting map. -/
def discard (p : AmplitudePanner) : AmplitudePanner := { p with pending := none }

/-- Blends the dry signal into the output of one speaker. -/
def blend (share : Float32) (input : Block) (outputs : List Block) (s : Speaker) : List Block :=
  outputs.modify s.channel fun out => (out.scale (1 - share)).accumulate share input.toArray

/-- Pans the first input; outputs without a speaker are silent. -/
def process (p : AmplitudePanner) (props : Properties) (inputs outputs : List Block) :
    List Block :=
  let silent := outputs.map fun _ => Block.silent
  match inputs with
  | [] => silent
  | input :: _ =>
    let panned := p.map.pan (props.float .azimuth) input.toArray silent
    let share := props.float .passthrough
    if share == 0 then panned else p.map.speakers.foldl (blend share input) panned

end AmplitudePanner

end SpatialAudio
