import MergedSpans.Chain.Basic

/-! # The text of a chain

* `Chain.text` — the dump: a line with the count, and a line for each span.
* `Chain.debugText` — the chain in diagnostics.
-/

namespace MergedSpans.Chain

/-- The first line of a dump. -/
def header (participant : Participant) (length : Nat) : String :=
  "List for participant " ++ participant.text ++ " contains " ++ Text.decimal length
    ++ " span(s)\n"

/-- The line of a span in a dump. -/
def spanLine (span : Span) : String := "  " ++ span.text ++ "\n"

/-- The dump of a chain. The count is the recorded one. -/
def text (chain : Chain) : Except Fault String := do
  let spans ← chain.spans
  return header chain.participant chain.length ++ String.join (spans.map spanLine)

/-- The chain in diagnostics. -/
def debugText (chain : Chain) : Except Fault String := do
  let spans ← chain.spans
  return Text.record "SpanList"
    [("participant", chain.participant.debugText),
      ("spans", Text.sequence (spans.map Span.debugText))]

end MergedSpans.Chain
