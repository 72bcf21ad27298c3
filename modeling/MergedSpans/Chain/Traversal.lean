import MergedSpans.Chain.Basic

/-! # Walking a chain

Two ways to go through a chain. A cursor is a bare position: it keeps no hold on the chain, and
means something only as long as its node stays. An iterator reads one chain from the front and
counts down what ought to be left.

* `Cursor`, `Chain.start`, `Chain.next`, `Chain.get` — positions.
* `Iter`, `Chain.iter`, `Iter.step`, `Iter.sizeHint` — iteration.
-/

namespace MergedSpans

/-- A position in a chain. -/
structure Cursor where
  /-- The node at the position; none past the end. -/
  node : Option NodeId
  deriving DecidableEq

namespace Cursor

/-- The position past the end. -/
def pastEnd : Cursor := ⟨none⟩

instance : Inhabited Cursor := ⟨pastEnd⟩

/-- Is this the position past the end? -/
def isEnd (cursor : Cursor) : Bool := cursor.node.isNone

end Cursor

namespace Chain

/-- The position of the first span. -/
def start (chain : Chain) : Cursor := ⟨chain.head⟩

/-- The position after another one; past the end there is no further one. -/
def next (chain : Chain) (cursor : Cursor) : Except Fault Cursor := do
  match cursor.node with
  | none => return .pastEnd
  | some id =>
    let node ← chain.node id
    return ⟨node.next⟩

/-- The span at a position. -/
def get (chain : Chain) (cursor : Cursor) : Except Fault Span :=
  match cursor.node with
  | none => .error .pastEnd
  | some id => chain.spanAt id

end Chain

/-- An iteration through a chain. -/
structure Iter where
  /-- The position to read next. -/
  cursor : Cursor
  /-- How many spans ought to be left. -/
  remaining : Nat
  deriving DecidableEq

/-- An iteration from the first span on. -/
def Chain.iter (chain : Chain) : Iter := ⟨chain.start, chain.length⟩

namespace Iter

/-- Read a span, if there is one left. -/
def step (chain : Chain) (iter : Iter) : Except Fault (Option Span × Iter) := do
  match iter.cursor.node with
  | none => return (none, iter)
  | some id =>
    let node ← chain.node id
    return (some node.span, ⟨⟨node.next⟩, iter.remaining - 1⟩)

/-- The least and, if there is one, the greatest number of spans that may be left. -/
def sizeHint (iter : Iter) : Nat × Option Nat := (iter.remaining, some iter.remaining)

/-- Read `count` times; past the end there is nothing to read. -/
def steps (chain : Chain) : (count : Nat) → Iter → Except Fault (List (Option Span) × Iter)
  | 0, iter => .ok ([], iter)
  | count + 1, iter => do
    let (span, iter) ← iter.step chain
    let (spans, iter) ← steps chain count iter
    return (span :: spans, iter)

/-- The spans that are left, at most `limit` of them. -/
def rest (chain : Chain) (limit : Nat) (iter : Iter) : Except Fault (List Span) := do
  let (spans, _) ← steps chain limit iter
  return spans.filterMap id

end Iter

end MergedSpans
