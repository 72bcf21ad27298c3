import MergedSpans.Span.Build
import MergedSpans.Span.Order
import MergedSpans.Store.Basic

/-! # Chains of spans

A chain keeps the spans of one participant in ascending order, as linked nodes of a store. When
all is well, neighbours neither share an address nor touch; but nothing in the type promises it,
because a node can be changed behind the chain's back.

* `Chain` — the two ends, the recorded length and the store.
* `Chain.node`, `Chain.spanAt` — a look at one node.
* `Chain.lowerBound` — the first node that starts at or after an address.
* `Chain.entries`, `Chain.spans` — the nodes and the spans in order.
* `Chain.total` — the lengths of the spans added up.
* `Chain.overlaps` — the query.
-/

namespace MergedSpans

/-- Spans in ascending order, as linked nodes of a store. -/
structure Chain where
  /-- Whom the spans are tracked for. -/
  participant : Participant
  /-- Where the nodes live. -/
  store : Store
  /-- The first node. -/
  head : Option NodeId := none
  /-- The last node. -/
  tail : Option NodeId := none
  /-- The number of nodes. -/
  length : Nat := 0
  deriving DecidableEq

namespace Chain

/-- A chain without spans. -/
def empty (participant : Participant) (store : Store) : Chain := { participant, store }

instance : Inhabited Chain := ⟨empty default default⟩

/-- Is the chain without spans? -/
def isEmpty (chain : Chain) : Bool := chain.length == 0

/-- The counters of the chain's store. -/
def counters (chain : Chain) : Counters := chain.store.counters

/-- The node under an id. -/
def node (chain : Chain) (id : NodeId) : Except Fault Node := chain.store.node id

/-- The span under an id. -/
def spanAt (chain : Chain) (id : NodeId) : Except Fault Span := do
  let node ← chain.node id
  return node.span

/-- One more than the number of nodes in the store. Whoever follows that many links has been
somewhere twice. -/
def reach (chain : Chain) : Nat := chain.store.live + 1

/-! ## Walks along the links -/

/-- The first node at or after a position that starts at or after `low`, among the next `steps`
nodes. -/
def lowerBoundFrom (chain : Chain) (low : UInt64) :
    Nat → Option NodeId → Except Fault (Option NodeId)
  | _, none => .ok none
  | 0, some _ => .error .endless
  | steps + 1, some id => do
    let node ← chain.node id
    if low ≤ node.span.low then return some id
    chain.lowerBoundFrom low steps node.next

/-- The first node that starts at or after `low`, if any does. -/
def lowerBound (chain : Chain) (low : UInt64) : Except Fault (Option NodeId) :=
  chain.lowerBoundFrom low chain.reach chain.head

/-- The nodes from a position on, at most `limit` of them. -/
def entriesFrom (chain : Chain) :
    (limit : Nat) → Option NodeId → Except Fault (List (NodeId × Node))
  | _, none => .ok []
  | 0, some _ => .ok []
  | limit + 1, some id => do
    let node ← chain.node id
    return (id, node) :: (← chain.entriesFrom limit node.next)

/-- The first nodes, at most `limit` of them. -/
def entries (chain : Chain) (limit : Nat) : Except Fault (List (NodeId × Node)) :=
  chain.entriesFrom limit chain.head

/-- The spans from a position on, among the next `steps` nodes. -/
def spansFrom (chain : Chain) : (steps : Nat) → Option NodeId → Except Fault (List Span)
  | _, none => .ok []
  | 0, some _ => .error .endless
  | steps + 1, some id => do
    let node ← chain.node id
    return node.span :: (← chain.spansFrom steps node.next)

/-- The spans in order. -/
def spans (chain : Chain) : Except Fault (List Span) := chain.spansFrom chain.reach chain.head

/-- The lengths of the spans from a position on added up, among the next `steps` nodes. -/
def totalFrom (chain : Chain) : (steps : Nat) → Option NodeId → Except Fault Nat
  | _, none => .ok 0
  | 0, some _ => .error .endless
  | steps + 1, some id => do
    let node ← chain.node id
    let length ← node.span.length
    let rest ← chain.totalFrom steps node.next
    return length + rest

/-- The lengths of all spans added up. The sum has no limit: damaged spans may overlap, and then
it counts an address more than once. -/
def total (chain : Chain) : Except Fault Nat := chain.totalFrom chain.reach chain.head

/-! ## Queries -/

/-- Does a span of the chain share an address with `span`? Only the neighbours of the place where
`span` belongs are asked. -/
def overlaps (chain : Chain) (span : Span) : Except Fault Bool := do
  span.require
  match chain.tail with
  | none => return false
  | some last =>
    match ← chain.lowerBound span.low with
    | none =>
      let lastSpan ← chain.spanAt last
      lastSpan.overlaps span
    | some successor =>
      let successorSpan ← chain.spanAt successor
      if ← span.overlaps successorSpan then return true
      let successorNode ← chain.node successor
      match successorNode.prev with
      | none => return false
      | some predecessor =>
        let predecessorSpan ← chain.spanAt predecessor
        predecessorSpan.overlaps span

end Chain

end MergedSpans
