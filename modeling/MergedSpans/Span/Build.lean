import MergedSpans.Arithmetic

/-! # Building spans

Ways to come by a span from numbers that need not make one. Where the caller promises a span, a
broken promise is a fault; where it does not, the result is a `SpanError`.

* `SpanError` — why two numbers make no span.
* `Span.require`, `Span.between` — two bounds that are promised to be in order.
* `Span.tryBetween`, `Span.tryOfLength` — numbers without a promise.
* `Span.length` — the number of addresses.
-/

namespace MergedSpans

/-- Why two numbers make no span. -/
inductive SpanError where
  /-- The bounds leave no address between them. -/
  | empty (low high : UInt64)
  /-- The span would end past the last address. -/
  | overflow (base length : UInt64)
  deriving DecidableEq

namespace SpanError

/-- The error in messages. -/
def message : SpanError → String
  | empty low high =>
    "empty span: low " ++ Span.addressText low ++ " is not below high " ++ Span.addressText high
  | overflow base length =>
    "span overflows address space: base " ++ Span.addressText base ++ ", len "
      ++ Text.decimal length.toNat

/-- The error in diagnostics. -/
def debugText : SpanError → String
  | empty low high =>
    Text.record "Empty" [("low", Text.decimal low.toNat), ("high", Text.decimal high.toNat)]
  | overflow base length =>
    Text.record "Overflow" [("base", Text.decimal base.toNat), ("len", Text.decimal length.toNat)]

end SpanError

namespace Span

/-- Check the promise that a span is well formed. -/
def require (span : Span) : Except Fault Unit :=
  if span.WellFormed then .ok () else .error (.invalidSpan span.low span.high)

/-- The span between two bounds that are promised to be in order. -/
def between (low high : UInt64) : Except Fault Span :=
  if low < high then .ok ⟨low, high⟩ else .error (.invalidSpan low high)

/-- The span between two bounds, if they are in order. -/
def tryBetween (low high : UInt64) : Except SpanError Span :=
  if low < high then .ok ⟨low, high⟩ else .error (.empty low high)

/-- The span of `length` addresses from `base` on, if there are that many. -/
def tryOfLength (base length : UInt64) : Except SpanError Span :=
  if base.toNat + length.toNat < Arithmetic.wordLimit then tryBetween base (base + length)
  else .error (.overflow base length)

/-- The number of addresses in a span. -/
def length (span : Span) : Except Fault Nat := Arithmetic.sub span.high.toNat span.low.toNat

theorem require_eq_ok_iff {span : Span} : span.require = .ok () ↔ span.WellFormed := by
  unfold require
  split <;> simp [*]

theorem between_eq_ok_iff {low high : UInt64} {span : Span} :
    between low high = .ok span ↔ low < high ∧ ⟨low, high⟩ = span := by
  unfold between
  split <;> simp [*]

end Span

end MergedSpans
