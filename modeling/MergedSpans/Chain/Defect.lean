import MergedSpans.Span.Basic

/-! # Defects of a chain

What an audit of a chain can find wrong: with one node, between two neighbours, or with what the
chain records about itself.
-/

namespace MergedSpans

/-- A broken rule of a chain of spans. -/
inductive Defect where
  /-- A node holds a span that is not well formed. -/
  | malformed (span : Span)
  /-- A node starts no later than the one before it. -/
  | unordered (prev next : Span)
  /-- Two neighbours touch and ought to be one node. -/
  | unmerged (prev next : Span)
  /-- A node's backward link does not lead to the node before it. -/
  | brokenLink (span : Span)
  /-- The recorded last node is not the last one reached. -/
  | brokenTail
  /-- The recorded number of nodes is not the number reached. -/
  | sizeMismatch (recorded counted : Nat)
  deriving DecidableEq

namespace Defect

/-- The defect in messages. -/
def message : Defect → String
  | malformed span => "malformed span " ++ span.text
  | unordered prev next => "spans out of order: " ++ prev.text ++ " before " ++ next.text
  | unmerged prev next =>
    "mergeable neighbours left unmerged: " ++ prev.text ++ " and " ++ next.text
  | brokenLink span => "broken prev link at " ++ span.text
  | brokenTail => "tail is not the last reachable node"
  | sizeMismatch recorded counted =>
    "size " ++ Text.decimal recorded ++ " recorded but " ++ Text.decimal counted
      ++ " nodes reachable"

/-- The defect in diagnostics. -/
def debugText : Defect → String
  | malformed span => Text.record "Malformed" [("span", span.debugText)]
  | unordered prev next =>
    Text.record "Unordered" [("prev", prev.debugText), ("next", next.debugText)]
  | unmerged prev next =>
    Text.record "Unmerged" [("prev", prev.debugText), ("next", next.debugText)]
  | brokenLink span => Text.record "BrokenLink" [("span", span.debugText)]
  | brokenTail => Text.record "BrokenTail" []
  | sizeMismatch recorded counted =>
    Text.record "SizeMismatch"
      [("recorded", Text.decimal recorded), ("counted", Text.decimal counted)]

end Defect

end MergedSpans
