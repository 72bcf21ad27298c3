import MergedSpans.Fault

/-! # Ordered questions about spans

How a span lies to another one that is promised to start no earlier. Asked in descending order
each of these questions is a fault; `Span.intersects` puts its spans in order first.

* `Span.mergeable` — the later span touches this one.
* `Span.overlaps` — the later span meets this one.
* `Span.contains` — this span covers the later one.
* `Span.intersects` — the two spans share an address, in either order.
-/

namespace MergedSpans.Span

/-- Give the answer to a question that is only to be asked in ascending order. -/
def inOrder (query : OrderedQuery) (span later : Span) (answer : Bool) : Except Fault Bool :=
  if span.low ≤ later.low then .ok answer else .error (.outOfOrder query)

/-- Does the later span touch this one, so that the two make one span? -/
def mergeable (span later : Span) : Except Fault Bool :=
  inOrder .mergeable span later (decide (span.Touches later))

/-- Does the later span meet this one, so that the two share an address? -/
def overlaps (span later : Span) : Except Fault Bool :=
  inOrder .overlaps span later (decide (span.Meets later))

/-- Does this span cover the later one? -/
def contains (span later : Span) : Except Fault Bool :=
  inOrder .contains span later (decide (span.Covers later))

/-- Do the two spans share an address? -/
def intersects (span other : Span) : Except Fault Bool :=
  if span.low ≤ other.low then span.overlaps other else other.overlaps span

theorem mergeable_of_le {span later : Span} (ordered : span.low ≤ later.low) :
    span.mergeable later = .ok (decide (span.Touches later)) := if_pos ordered

theorem overlaps_of_le {span later : Span} (ordered : span.low ≤ later.low) :
    span.overlaps later = .ok (decide (span.Meets later)) := if_pos ordered

theorem contains_of_le {span later : Span} (ordered : span.low ≤ later.low) :
    span.contains later = .ok (decide (span.Covers later)) := if_pos ordered

end MergedSpans.Span
