import MergedSpans.Chain.Basic

/-! # Link surgery

The three ways in which the nodes of a chain are relinked. Where there is no neighbour on one
side, the chain's own end on that side takes the neighbour's place.

* `Chain.spliceBefore` — a new node enters.
* `Chain.merge` — a node takes in the one after it.
* `Chain.discard` — a node leaves.
-/

namespace MergedSpans.Chain

/-- Do something to the chain's store. -/
def onStore {α : Type} (action : Action Store α) : Action Chain α :=
  Action.within Chain.store (fun chain store => { chain with store }) action

/-- Change the node under an id. -/
def write (id : NodeId) (change : Node → Node) : Action Chain Unit :=
  onStore (Store.write id change)

/-- Record that the node behind `before` is now `target`; with no `before`, that the first is. -/
def setNext (before target : Option NodeId) : Action Chain Unit :=
  match before with
  | some id => write id fun node => { node with next := target }
  | none => Action.update fun chain => { chain with head := target }

/-- Record that the node in front of `after` is now `target`; with no `after`, that the last
is. -/
def setPrev (after target : Option NodeId) : Action Chain Unit :=
  match after with
  | some id => write id fun node => { node with prev := target }
  | none => Action.update fun chain => { chain with tail := target }

/-- Take a node out of the store and off the count. -/
def releaseCounted (id : NodeId) : Action Chain Unit := do
  onStore (Store.release id)
  let length ← Action.read fun chain => Arithmetic.sub chain.length 1
  Action.update fun chain => { chain with length }

/-- The node in front of `successor`; with no `successor`, the last node. -/
def predecessor? (chain : Chain) (successor : Option NodeId) : Except Fault (Option NodeId) := do
  match successor with
  | some id =>
    let node ← chain.node id
    return node.prev
  | none => return chain.tail

/-- Link a node without neighbours directly before `successor`, or last when there is none. -/
def spliceBefore (id : NodeId) (successor : Option NodeId) : Action Chain Unit := do
  let before ← Action.read (·.predecessor? successor)
  write id fun node => { node with prev := before, next := successor }
  setNext before (some id)
  setPrev successor (some id)
  Action.update fun chain => { chain with length := chain.length + 1 }

/-- The smallest span that covers two spans of which the first starts no later. -/
def hull (first second : Span) : Span := ⟨first.low, max first.high second.high⟩

/-- Fault two nodes that are not neighbours in ascending order. -/
def requireNeighbours (first second : NodeId) (firstNode secondNode : Node) : Except Fault Unit :=
  if firstNode.next = some second ∧ secondNode.prev = some first
      ∧ firstNode.span.low ≤ secondNode.span.low then .ok ()
  else .error (.notAdjacent firstNode.span secondNode.span)

/-- Let a node take in its direct successor: its span grows over the other's, and the other
leaves. -/
def merge (first second : NodeId) : Action Chain Unit := do
  let firstNode ← Action.read (·.node first)
  let secondNode ← Action.read (·.node second)
  Action.ofExcept (requireNeighbours first second firstNode secondNode)
  let chain ← Action.current
  let merged := hull firstNode.span secondNode.span
  Action.emit (.merging chain.participant firstNode.span secondNode.span merged)
  write first fun node => { node with span := merged, next := secondNode.next }
  setPrev secondNode.next (some first)
  releaseCounted second

/-- Unlink a node and take it out of the store; the answer is the node that was behind it. -/
def discard (id : NodeId) : Action Chain (Option NodeId) := do
  let node ← Action.read (·.node id)
  let chain ← Action.current
  Action.emit (.deleting chain.participant node.span)
  setNext node.prev node.next
  setPrev node.next node.prev
  releaseCounted id
  return node.next

end MergedSpans.Chain
