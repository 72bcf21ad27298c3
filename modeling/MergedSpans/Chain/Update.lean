import MergedSpans.Chain.Audit
import MergedSpans.Chain.Links
import MergedSpans.Op

/-! # Changes of a chain

Adding and taking away addresses. A change that gets to its end audits the chain it leaves.

* `Chain.insert` — add the addresses of a span.
* `Chain.erase` — take the addresses of a span away.
* `Chain.clear` — take all addresses away.
* `Chain.perform` — any of the calls, given as data.
-/

namespace MergedSpans

namespace Chain

/-- Fault a span that is not well formed. -/
def requireFormed (span : Span) : Action Chain Unit := Action.ofExcept span.require

/-- Fault a chain that has a defect. -/
def recheck : Action Chain Unit := Action.read requireSound

/-! ## Insertion -/

/-- Merge a new node into the one before it, if the two touch. The answer is the node that now
holds the new span. -/
def mergeBack (id : NodeId) (span : Span) : Action Chain NodeId := do
  let node ← Action.read (·.node id)
  match node.prev with
  | none => return id
  | some before =>
    let beforeSpan ← Action.read (·.spanAt before)
    let touches ← Action.ofExcept (beforeSpan.mergeable span)
    if touches then do
      merge before id
      return before
    else return id

/-- Merge a node with the ones behind it for as long as they touch, at most `steps` times. -/
def mergeForward (id : NodeId) : (steps : Nat) → Action Chain Unit
  | 0 => Action.fail .endless
  | steps + 1 => do
    let node ← Action.read (·.node id)
    match node.next with
    | none => pure ()
    | some successor =>
      let span ← Action.read (·.spanAt id)
      let successorSpan ← Action.read (·.spanAt successor)
      let touches ← Action.ofExcept (span.mergeable successorSpan)
      if touches then do
        merge id successor
        mergeForward id steps
      else pure ()

/-- Add the addresses of a span. Its new node enters where it belongs and is merged back once,
because at most one earlier node can touch it, and then forward. -/
def insert (span : Span) : Action Chain Unit := do
  requireFormed span
  let id ← onStore (Store.allocate span)
  let successor ← Action.read (·.lowerBound span.low)
  spliceBefore id successor
  let holder ← mergeBack id span
  let chain ← Action.current
  mergeForward holder chain.reach
  recheck

/-! ## Removal -/

/-- Take the end off a node in front of `span`. -/
def trimEnd (id : NodeId) (whole span : Span) : Action Chain Unit := do
  let kept ← Action.ofExcept (Span.between whole.low span.low)
  let chain ← Action.current
  Action.emit (.trimming chain.participant whole kept)
  write id fun node => { node with span.high := span.low }

/-- Take the middle out of a node: it leaves, and what it had on either side of `span` is
inserted again. -/
def split (id : NodeId) (whole span : Span) : Action Chain Unit := do
  let left ← Action.ofExcept (Span.between whole.low span.low)
  let right ← Action.ofExcept (Span.between span.high whole.high)
  let chain ← Action.current
  Action.emit (.splitting chain.participant whole left right)
  let _ ← discard id
  insert left
  insert right

/-- Take the start off a node behind `span`. -/
def trimStart (id : NodeId) (whole span : Span) : Action Chain Unit := do
  let kept ← Action.ofExcept (Span.between span.high whole.high)
  let chain ← Action.current
  Action.emit (.trimming chain.participant whole kept)
  write id fun node => { node with span.low := span.high }

/-- Take the addresses of `span` away from the node that starts before it, if there is one. -/
def cutBefore (span : Span) : (before : Option NodeId) → Action Chain Unit
  | none => pure ()
  | some id => do
    let whole ← Action.read (·.spanAt id)
    let meets ← Action.ofExcept (whole.overlaps span)
    if !meets then pure ()
    else if whole.high ≤ span.high then trimEnd id whole span
    else split id whole span

/-- Take the addresses of `span` away from the nodes that start at it or later, for at most
`steps` nodes. -/
def cutFrom (span : Span) : (steps : Nat) → (position : Option NodeId) → Action Chain Unit
  | _, none => pure ()
  | 0, some _ => Action.fail .endless
  | steps + 1, some id => do
    let whole ← Action.read (·.spanAt id)
    let meets ← Action.ofExcept (span.overlaps whole)
    if !meets then pure ()
    else do
      let covers ← Action.ofExcept (span.contains whole)
      if covers then do
        let successor ← discard id
        cutFrom span steps successor
      else trimStart id whole span

/-- Take the addresses of a span away from a chain with a first node. -/
def cut (span : Span) : Action Chain Unit := do
  let successor ← Action.read (·.lowerBound span.low)
  let before ← Action.read (·.predecessor? successor)
  cutBefore span before
  let chain ← Action.current
  cutFrom span chain.reach successor
  recheck

/-- Take the addresses of a span away. -/
def erase (span : Span) : Action Chain Unit := do
  requireFormed span
  let chain ← Action.current
  if chain.head.isNone then pure () else cut span

/-- Take all addresses away. Every node leaves the store, also those that no link leads to. -/
def clear : Action Chain Unit := do
  let chain ← Action.current
  Action.emit (.clearing chain.participant chain.length)
  onStore Store.reset
  Action.update fun chain => { chain with head := none, tail := none, length := 0 }

/-! ## Calls as data -/

/-- Make a call; only a query has something to answer. -/
def perform : Op → Action Chain (Option Bool)
  | .insert span => do
    insert span
    return none
  | .erase span => do
    erase span
    return none
  | .overlaps span => do
    let hit ← Action.read (·.overlaps span)
    return some hit
  | .clear => do
    clear
    return none

end Chain

end MergedSpans
