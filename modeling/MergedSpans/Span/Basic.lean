import MergedSpans.Text.Numeral
import MergedSpans.Text.Labelled

/-! # Spans

A span is a half-open interval of 64-bit addresses. A span with its bounds the wrong way round
can be written down, because nodes can be damaged into holding one; `Span.WellFormed` tells the
others apart.

* `Span` — the two bounds, compared by `low` first.
* `Span.WellFormed` — the span holds an address.
* `Span.Touches`, `Span.Meets`, `Span.Covers` — how a span lies to one that starts no earlier.
-/

namespace MergedSpans

/-- The addresses from `low` up to, and not including, `high`. -/
structure Span where
  /-- The first address. -/
  low : UInt64
  /-- The address after the last. -/
  high : UInt64
  deriving DecidableEq, Inhabited

namespace Span

/-- A span is well formed when it holds an address. -/
def WellFormed (span : Span) : Prop := span.low < span.high

instance (span : Span) : Decidable span.WellFormed :=
  inferInstanceAs (Decidable (span.low < span.high))

/-- `span.Holds address` when the address lies between the bounds. -/
def Holds (span : Span) (address : UInt64) : Prop := span.low ≤ address ∧ address < span.high

instance (span : Span) (address : UInt64) : Decidable (span.Holds address) :=
  inferInstanceAs (Decidable (_ ∧ _))

/-- A span is empty when it holds no address. -/
def isEmpty (span : Span) : Bool := decide (span.high ≤ span.low)

/-- A span touches a later one when no address lies between them. -/
def Touches (span later : Span) : Prop := span.low = later.low ∨ later.low ≤ span.high

instance (span later : Span) : Decidable (span.Touches later) :=
  inferInstanceAs (Decidable (_ ∨ _))

/-- A span meets a later one when the later one starts inside it. -/
def Meets (span later : Span) : Prop := span.low = later.low ∨ later.low < span.high

instance (span later : Span) : Decidable (span.Meets later) :=
  inferInstanceAs (Decidable (_ ∨ _))

/-- A span covers another one when it starts no later and ends no earlier. -/
def Covers (span other : Span) : Prop := span.low ≤ other.low ∧ other.high ≤ span.high

instance (span other : Span) : Decidable (span.Covers other) :=
  inferInstanceAs (Decidable (_ ∧ _))

/-- Spans are ordered by their low bounds, and those that start together by their high bounds. -/
instance : Ord Span :=
  ⟨fun first second => (compare first.low second.low).then (compare first.high second.high)⟩

/-- An address in messages: a hexadecimal numeral behind its mark. -/
def addressText (address : UInt64) : String := "0x" ++ Text.hex address.toNat

/-- The span in messages: its two bounds. -/
def text (span : Span) : String := addressText span.low ++ " - " ++ addressText span.high

/-- The span in diagnostics: its two bounds in decimal. -/
def debugText (span : Span) : String :=
  Text.record "Span"
    [("low", Text.decimal span.low.toNat), ("high", Text.decimal span.high.toNat)]

@[simp] theorem isEmpty_eq_false_iff (span : Span) :
    span.isEmpty = false ↔ span.WellFormed := by
  simp [isEmpty, WellFormed, UInt64.not_le]

/-- A span that covers a well-formed one meets it. -/
theorem Covers.meets {span other : Span} (covers : span.Covers other)
    (formed : other.WellFormed) : span.Meets other :=
  Or.inr (UInt64.lt_of_lt_of_le formed covers.2)

/-- Spans that meet also touch. -/
theorem Meets.touches {span later : Span} (meets : span.Meets later) : span.Touches later :=
  meets.imp id UInt64.le_of_lt

end Span

end MergedSpans
