import MergedSpans.Chain.Update
import MergedSpans.Registry.Basic

/-! # Workloads

Chains and call sequences to measure with.

* `Workload.pageSpan` — the span of one page.
* `Workload.pool` — a pool of a given size.
* `Workload.fragmented` — a chain of pages that do not touch.
* `Workload.replay` — a recorded sequence of calls.
-/

namespace MergedSpans.Workload

/-- The number of addresses in a page. -/
def pageLength : Nat := 0x1000

/-- The span of the page with a given number. -/
def pageSpan (index : Nat) : Except Fault Span := do
  let low ← Arithmetic.mul index pageLength
  let following ← Arithmetic.add index 1
  let high ← Arithmetic.mul following pageLength
  Span.between (UInt64.ofNat low) (UInt64.ofNat high)

/-- A pool with a given number of slots, sized by default otherwise. -/
def pool (slots : UInt32) : Pool := .ofSizing { maxParticipants := 1, poolSlots := slots }

/-- Insert every other page, `count` of them, from page `2 * first` on. -/
def insertEvenPages (first : Nat) : (count : Nat) → Action Chain Unit
  | 0 => pure ()
  | count + 1 => do
    let index ← Action.ofExcept (Arithmetic.mul first 2)
    let page ← Action.ofExcept (pageSpan index)
    Chain.insert page
    insertEvenPages (first + 1) count

/-- Make a chain over a store out of every even page below `2 * count`. -/
def fragmented (count : Nat) (store : Store) : Outcome Chain Unit :=
  (insertEvenPages 0 count).run (.empty default store)

/-- Make recorded calls; the answer is the number of queries that hit. -/
def replay : List Op → Action Chain Nat
  | [] => pure 0
  | op :: rest => do
    let answer ← Chain.perform op
    let hits ← replay rest
    return (if answer = some true then 1 else 0) + hits

end MergedSpans.Workload
