import MergedSpans.Chain.Basic

/-! # Audits

An audit walks a chain once and looks for the first defect. It gives up after one node more than
the chain records, so that it ends on every chain, however damaged.

* `Audit` — the nodes that were visited, and the verdict.
* `Defect.ofNode?` — what is wrong with one node behind its predecessor.
* `Chain.audit`, `Chain.validate` — the walk, and its verdict alone.
-/

namespace MergedSpans

/-- What an audit found. -/
structure Audit where
  /-- The nodes looked at, in order. -/
  visited : List NodeId
  /-- The first defect, if any; a link that leads nowhere is a fault. -/
  verdict : Except Fault (Option Defect)

namespace Audit

/-- The audit that ends at once. -/
def ended (verdict : Except Fault (Option Defect)) : Audit := ⟨[], verdict⟩

/-- The same audit, with a node looked at before it. -/
def after (id : NodeId) (audit : Audit) : Audit := { audit with visited := id :: audit.visited }

end Audit

namespace Chain

/-- What is wrong with a node's span behind that of its predecessor. -/
def pairDefect? (before span : Span) : Except Fault (Option Defect) := do
  if span.low ≤ before.low then return some (.unordered before span)
  if ← before.mergeable span then return some (.unmerged before span)
  return none

/-- What is wrong with a node that was reached from `before`. Its link back is looked at first,
then its span, then the span before it. -/
def nodeDefect? (chain : Chain) (before : Option NodeId) (node : Node) :
    Except Fault (Option Defect) := do
  if node.prev ≠ before then return some (.brokenLink node.span)
  if ¬ node.span.WellFormed then return some (.malformed node.span)
  match before with
  | none => return none
  | some predecessor =>
    let span ← chain.spanAt predecessor
    pairDefect? span node.span

/-- What is wrong with a chain whose nodes are in order, given the last of them and their
number. -/
def endDefect? (chain : Chain) (last : Option NodeId) (counted : Nat) : Option Defect :=
  if chain.tail ≠ last then some .brokenTail
  else if counted ≠ chain.length then some (.sizeMismatch chain.length counted)
  else none

/-- Audit the nodes from a position on, with at most `budget` nodes to look at. -/
def auditFrom (chain : Chain) : (budget counted : Nat) → (before : Option NodeId) →
    (position : Option NodeId) → Audit
  | _, counted, before, none => .ended (.ok (chain.endDefect? before counted))
  | 0, counted, _, some _ => .ended (.ok (some (.sizeMismatch chain.length counted)))
  | budget + 1, counted, before, some id =>
    match chain.node id with
    | .error fault => .ended (.error fault)
    | .ok node =>
      .after id <|
        match chain.nodeDefect? before node with
        | .error fault => .ended (.error fault)
        | .ok (some defect) => .ended (.ok (some defect))
        | .ok none => chain.auditFrom budget (counted + 1) (some id) node.next

/-- Audit a chain from its first node on. -/
def audit (chain : Chain) : Audit := chain.auditFrom (chain.length + 1) 0 none chain.head

/-- The first defect of a chain, if it has any. -/
def validate (chain : Chain) : Except Fault (Option Defect) := chain.audit.verdict

/-- Fault a chain that has a defect. -/
def requireSound (chain : Chain) : Except Fault Unit := do
  match ← chain.validate with
  | none => return ()
  | some defect => throw (.corrupted chain.participant defect)

end Chain

end MergedSpans
