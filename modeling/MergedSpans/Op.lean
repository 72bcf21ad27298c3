import MergedSpans.Span.Basic

/-! # Calls as data

What can be asked of a set of spans, however it is kept.
-/

namespace MergedSpans

/-- A call on a set of spans. -/
inductive Op where
  /-- Add the addresses of a span. -/
  | insert (span : Span)
  /-- Take the addresses of a span away. -/
  | erase (span : Span)
  /-- Ask whether a span shares an address with the set. -/
  | overlaps (span : Span)
  /-- Take all addresses away. -/
  | clear
  deriving DecidableEq

end MergedSpans
