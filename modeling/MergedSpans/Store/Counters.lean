import MergedSpans.Arithmetic

/-! # Allocation counters

A snapshot of how a store serves its chain. Live counts are those of the moment; hits and
fallbacks add up over the store's life and survive every reset.
-/

namespace MergedSpans

/-- The counters of a store. -/
structure Counters where
  /-- Slots in the slab; none for a store without one. -/
  capacity : Nat
  /-- Nodes that live in the slab. -/
  livePool : Nat
  /-- Nodes that live in the growing table. -/
  liveHeap : Nat
  /-- Allocations served by the slab. -/
  poolHits : Nat
  /-- Allocations served by the growing table. -/
  heapFallbacks : Nat
  deriving DecidableEq, Inhabited

namespace Counters

/-- Live nodes in both tiers. -/
def live (counters : Counters) : Except Fault Nat := Arithmetic.add counters.livePool counters.liveHeap

/-- Allocations served by either tier. -/
def served (counters : Counters) : Except Fault Nat :=
  Arithmetic.add counters.poolHits counters.heapFallbacks

/-- The share of allocations that the slab served, once there was one. Both numbers are rounded to
the nearest float before the division. -/
def hitRate (counters : Counters) : Except Fault (Option Float) := do
  let served ← counters.served
  if served = 0 then return none
  return some (counters.poolHits.toUInt64.toFloat / served.toUInt64.toFloat)

/-- The counters in diagnostics. -/
def debugText (counters : Counters) : String :=
  Text.record "PoolStats"
    [("capacity", Text.decimal counters.capacity), ("live_pool", Text.decimal counters.livePool),
      ("live_heap", Text.decimal counters.liveHeap), ("pool_hits", Text.decimal counters.poolHits),
      ("heap_fallbacks", Text.decimal counters.heapFallbacks)]

end Counters

end MergedSpans
