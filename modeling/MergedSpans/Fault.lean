import MergedSpans.Chain.Defect
import MergedSpans.Node
import MergedSpans.Participant

/-! # Faults

A fault is a broken contract: the call that meets one stops where it stands, and what it has
changed so far stays changed. Results that a caller is expected to handle are not faults; they
have types of their own (`SpanError`, `SizingError`, `Refusal`, `Defect`).

* `Fault` — the causes.
* `Fault.message` — the wording of each.
-/

namespace MergedSpans

/-- The questions about two spans that may only be asked in ascending order. -/
inductive OrderedQuery where
  /-- Do the two spans touch? -/
  | mergeable
  /-- Do the two spans share an address? -/
  | overlaps
  /-- Does the first span hold all of the second? -/
  | contains
  deriving DecidableEq

/-- The name of an ordered question in messages. -/
def OrderedQuery.text : OrderedQuery → String
  | mergeable => "mergeable"
  | overlaps => "overlaps"
  | contains => "contains"

/-- The arithmetic operations that have to stay in range. -/
inductive Operation where
  /-- A sum that has to fit. -/
  | add
  /-- A difference that must not be negative. -/
  | subtract
  /-- A product that has to fit. -/
  | multiply
  deriving DecidableEq

/-- The name of an operation in messages. -/
def Operation.text : Operation → String
  | add => "add"
  | subtract => "subtract"
  | multiply => "multiply"

/-- The ways to break a contract. -/
inductive Fault where
  /-- A span was needed and its low bound is not below its high bound. -/
  | invalidSpan (low high : UInt64)
  /-- An ordered question was asked of spans in descending order. -/
  | outOfOrder (query : OrderedQuery)
  /-- An arithmetic result left its range. -/
  | overflow (operation : Operation)
  /-- A slab id was shown to a store without a slab. -/
  | foreignTier (id : NodeId)
  /-- A heap id names a slot that the table never had. -/
  | unknownSlot (id : NodeId)
  /-- A slab id names a slot past the end of the slab. -/
  | outsideSlab (id : NodeId) (capacity : Nat)
  /-- The named slot holds no node of the id's generation. -/
  | stale (id : NodeId) (generation : UInt32)
  /-- The growing table has no index left for a new slot. -/
  | heapFull
  /-- Two nodes to be merged are not neighbours in ascending order. -/
  | notAdjacent (first second : Span)
  /-- A chain has a defect after a change. -/
  | corrupted (participant : Participant) (defect : Defect)
  /-- A span was asked for at the position past the end. -/
  | pastEnd
  /-- A locked set was used after a fault inside its lock. -/
  | poisoned (participant : Participant)
  /-- A range of addresses runs backwards. -/
  | invertedRange
  /-- The links that a call follows form a circle. -/
  | endless
  deriving DecidableEq

/-- The wording of a fault. -/
def Fault.message : Fault → String
  | invalidSpan low high =>
    "invalid span: low " ++ Span.addressText low ++ " must be below high "
      ++ Span.addressText high
  | outOfOrder query => query.text ++ "() called out of order"
  | overflow operation => "attempt to " ++ operation.text ++ " with overflow"
  | foreignTier id => id.text ++ " does not belong to heap node storage"
  | unknownSlot id => id.text ++ " is out of range for heap node storage"
  | outsideSlab id capacity =>
    id.text ++ " lies outside this pool's " ++ Text.decimal capacity ++ " slots"
  | stale id generation =>
    id.text ++ " is stale (slot generation " ++ Text.decimal generation.toNat ++ ")"
  | heapFull => "heap node storage exceeded u32::MAX slots"
  | notAdjacent first second =>
    "merge of non-adjacent nodes " ++ first.text ++ " and " ++ second.text
  | corrupted participant defect =>
    "span list for participant " ++ participant.text ++ " corrupted: " ++ defect.message
  | pastEnd => "get_span() called on the end cursor"
  | poisoned participant =>
    "span set for participant " ++ participant.text ++ " poisoned by an earlier panic"
  | invertedRange => "range start is greater than range end in BTreeSet"
  | endless => "the links form a circle"

end MergedSpans
