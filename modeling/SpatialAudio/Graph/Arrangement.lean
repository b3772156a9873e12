import SpatialAudio.Graph.Connection

/-!
# Graph/Arrangement — giving a node a layout

A layout is admitted if its channel counts and slots are in bounds and every connection of the node
keeps its width (`checkLayout`).  Applying one silences all blocks of the node — unless it is the
layout the node has, which changes no block.
-/

namespace SpatialAudio.Graph

/-! ## Admission -/

/-- Refuses channel counts above the maximum. -/
def checkChannels (l : Layout) : Except Error Unit := do
  if maxChannels < l.inputs then throw (.tooManyChannels l.inputs)
  if maxChannels < l.outputs then throw (.tooManyChannels l.outputs)

/-- Refuses the first slot that does not fit. -/
def checkSlots (channels : Nat) : List ChannelRange → Except Failure Unit
  | [] => .ok ()
  | r :: rest =>
    match r.fits? channels with
    | some true => checkSlots channels rest
    | some false => .error (.refused (.invalidRange r.start r.count channels))
    | none => .error (.aborted .channelOverflow)

/-- Refuses a layout under which a connection of the node in slot `i` would change width. -/
def checkEdges (g : Graph) (i : Nat) (l : Layout) : Except Error Unit := do
  (g.incoming i).forM fun e => do
    let output ← slotRange (g.layoutAt e.source).outputSlots e.outputSlot
    let input ← slotRange l.inputSlots e.inputSlot
    checkWidth output.count input.count
  (g.outgoing i).forM fun e => do
    let input ← slotRange (g.layoutAt e.target).inputSlots e.inputSlot
    let output ← slotRange l.outputSlots e.outputSlot
    checkWidth output.count input.count

/-- Refuses a layout that the node in slot `i` cannot take. -/
def checkLayout (g : Graph) (i : Nat) (l : Layout) : Except Failure Unit := do
  checkChannels l
  checkSlots l.inputs l.inputSlots
  checkSlots l.outputs l.outputSlots
  g.checkEdges i l

/-! ## Application -/

/-- The node under a layout, all of its blocks silent. -/
def arrange (l : Layout) (n : Node) : Node :=
  { n with
    layout := l
    inputs := List.replicate l.inputs Block.silent
    outputs := List.replicate l.outputs Block.silent
    kind := n.kind.layoutApplied }

/-- Gives the node in slot `i` a layout. -/
def applyLayoutAt (g : Graph) (i : Nat) (l : Layout) : Except Failure Graph := do
  if g.layoutAt i = l then
    return g.modifyAt i fun n => { n with kind := n.kind.layoutApplied }
  else
    g.checkLayout i l
    return g.modifyAt i (arrange l)

/-- Gives a node a layout. -/
def applyLayout (g : Graph) (id : NodeId) (l : Layout) : Except Failure Graph := do
  let i ← g.index id
  g.applyLayoutAt i l

/-! ## Edits -/

/-- The layout after an edit, and the number of the slot it appended. -/
def editLayout (l : Layout) : LayoutEdit → Except Error (Layout × Option Nat)
  | .replace layout => .ok (layout, none)
  | .resize inputs outputs => .ok (l.resize inputs outputs, none)
  | .appendInput r => .ok (l.appendInput r, some l.inputSlots.length)
  | .appendOutput r => .ok (l.appendOutput r, some l.outputSlots.length)
  | .setInput slot r => do
    let _ ← slotRange l.inputSlots slot
    return (l.setInput slot r, none)
  | .setOutput slot r => do
    let _ ← slotRange l.outputSlots slot
    return (l.setOutput slot r, none)

/-- Edits the layout of a node; the result is the number of the slot that was appended. -/
def edit (id : NodeId) (e : LayoutEdit) : GraphM (Option Nat) := do
  let (layout, slot) ← GraphM.read fun g => do editLayout (← g.node id).layout e
  GraphM.update fun g => g.applyLayout id layout
  return slot

end SpatialAudio.Graph
