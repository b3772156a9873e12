import SpatialAudio.Block
import SpatialAudio.Arithmetic.Single

/-!
# Layout — how many channels a node has and which of them its connections use

A `Layout` gives channel counts for both sides of a node and lays **slots** over them: a slot is a
contiguous run of channels that one connection carries.  Channel numbers are 64-bit words, so a slot
whose end is no such word has none (`ChannelRange.stop?`).
-/

namespace SpatialAudio

/-- A contiguous run of channels. -/
structure ChannelRange where
  start : Nat
  count : Nat
deriving Repr, DecidableEq

namespace ChannelRange

/-- One past the last channel, if that is still a 64-bit word. -/
def stop? (r : ChannelRange) : Option Nat :=
  if r.start + r.count < wordLimit then some (r.start + r.count) else none

/-- Whether the run lies within the first `channels` channels; no answer if it has no end. -/
def fits? (r : ChannelRange) (channels : Nat) : Option Bool :=
  r.stop?.map fun stop => stop ≤ channels

/-- The channels of a list that the run covers. -/
def cut {α : Type} (r : ChannelRange) (channels : List α) : List α :=
  (channels.drop r.start).take r.count

end ChannelRange

/-- Channel counts and the slots laid over them. -/
structure Layout where
  inputs : Nat
  outputs : Nat
  inputSlots : List ChannelRange
  outputSlots : List ChannelRange
deriving Repr, DecidableEq

namespace Layout

/-- No channels and no slots. -/
def empty : Layout := ⟨0, 0, [], []⟩

/-- Equally many channels on both sides, and one slot over all of them on each. -/
def symmetric (channels : Nat) : Layout := ⟨channels, channels, [⟨0, channels⟩], [⟨0, channels⟩]⟩

/-- No inputs and one output. -/
def source : Layout := ⟨0, 1, [], [⟨0, 1⟩]⟩

/-- One input spread over `outputs` channels. -/
def spread (outputs : Nat) : Layout := ⟨1, outputs, [⟨0, 1⟩], [⟨0, outputs⟩]⟩

/-- All inputs taken by one slot, and no outputs. -/
def sink (channels : Nat) : Layout := ⟨channels, 0, [⟨0, channels⟩], []⟩

/-- Other channel counts under the same slots. -/
def resize (l : Layout) (inputs outputs : Nat) : Layout := { l with inputs, outputs }

/-- One more input slot, behind the others. -/
def appendInput (l : Layout) (r : ChannelRange) : Layout :=
  { l with inputSlots := l.inputSlots ++ [r] }

/-- One more output slot, behind the others. -/
def appendOutput (l : Layout) (r : ChannelRange) : Layout :=
  { l with outputSlots := l.outputSlots ++ [r] }

/-- The input slot at `slot` replaced. -/
def setInput (l : Layout) (slot : Nat) (r : ChannelRange) : Layout :=
  { l with inputSlots := l.inputSlots.set slot r }

/-- The output slot at `slot` replaced. -/
def setOutput (l : Layout) (slot : Nat) (r : ChannelRange) : Layout :=
  { l with outputSlots := l.outputSlots.set slot r }

end Layout

end SpatialAudio
