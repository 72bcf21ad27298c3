import MergedSpans.Node
import Mathlib.Data.Set.Insert
import Mathlib.Logic.Function.Basic

/-! # Ledgers

A ledger is all that ids can tell about a store: the node each of them reaches, and which of them
were ever given out. It knows nothing of slots, tiers and free lists; every kind of store keeps
one, and keeps it in the same way.

* `Ledger` — the partial map from ids to nodes, the ids given out, and two counts.
* `Ledger.allocate`, `Ledger.release`, `Ledger.write`, `Ledger.reset` — the changes.
* `Census` — a ledger without its nodes: which ids reach one, and the counts.
* `Ledger.join` — the ledger of a store with two tiers. A change of one tier is a change of the
  whole, as long as the other does not know the id.
-/

namespace MergedSpans

/-- What ids can tell about a store. -/
structure Ledger where
  /-- The node that an id reaches. -/
  bound : NodeId → Option Node
  /-- The ids that were ever given out. -/
  issued : Set NodeId
  /-- The number of nodes. -/
  live : Nat
  /-- The number of allocations so far. -/
  allocations : Nat

namespace Ledger

/-- The ledger of a store that was never used. -/
def empty : Ledger := ⟨fun _ => none, ∅, 0, 0⟩

/-- The id is given out for a node without neighbours. -/
def allocate (id : NodeId) (span : Span) (ledger : Ledger) : Ledger where
  bound := Function.update ledger.bound id (some (.unlinked span))
  issued := insert id ledger.issued
  live := ledger.live + 1
  allocations := ledger.allocations + 1

/-- The id reaches nothing any more. -/
def release (id : NodeId) (ledger : Ledger) : Ledger where
  bound := Function.update ledger.bound id none
  issued := ledger.issued
  live := ledger.live - 1
  allocations := ledger.allocations

/-- The node that the id reaches is changed. -/
def write (id : NodeId) (change : Node → Node) (ledger : Ledger) : Ledger where
  bound := Function.update ledger.bound id ((ledger.bound id).map change)
  issued := ledger.issued
  live := ledger.live
  allocations := ledger.allocations

/-- No id reaches anything any more. -/
def reset (ledger : Ledger) : Ledger where
  bound := fun _ => none
  issued := ledger.issued
  live := 0
  allocations := ledger.allocations

/-- Two ledgers are the same when they tell the same of every id and count the same. -/
theorem ext_of {first second : Ledger} (bound : ∀ id, first.bound id = second.bound id)
    (issued : ∀ id, id ∈ first.issued ↔ id ∈ second.issued) (live : first.live = second.live)
    (allocations : first.allocations = second.allocations) : first = second := by
  obtain ⟨firstBound, firstIssued, _, _⟩ := first
  obtain ⟨secondBound, secondIssued, _, _⟩ := second
  obtain rfl : firstBound = secondBound := funext bound
  obtain rfl : firstIssued = secondIssued := Set.ext issued
  obtain rfl := live
  obtain rfl := allocations
  rfl

/-! ## Two tiers -/

/-- The ledger of two tiers, of which the first is asked first. -/
def join (first second : Ledger) : Ledger where
  bound := fun id => (first.bound id).or (second.bound id)
  issued := first.issued ∪ second.issued
  live := first.live + second.live
  allocations := first.allocations + second.allocations

section Join

variable {first second : Ledger} {id : NodeId}

-- In all of these the id is known to one tier at most, so it makes no difference whether the change
-- is made before the tiers are joined or after.

theorem join_allocate_left (first second : Ledger) (id : NodeId) (span : Span) :
    (first.allocate id span).join second = (first.join second).allocate id span := by
  apply ext_of
  · intro other
    by_cases same : other = id <;> simp [join, allocate, Function.update_apply, same]
  · simp [join, allocate, or_assoc]
  · simp only [join, allocate]
    omega
  · simp only [join, allocate]
    omega

theorem join_allocate_right (elsewhere : first.bound id = none) (span : Span) :
    first.join (second.allocate id span) = (first.join second).allocate id span := by
  apply ext_of
  · intro other
    by_cases same : other = id <;> simp [join, allocate, Function.update_apply, same, elsewhere]
  · simp [join, allocate]
  · simp only [join, allocate]
    omega
  · simp only [join, allocate]
    omega

theorem join_release_left (elsewhere : second.bound id = none) (live : 0 < first.live) :
    (first.release id).join second = (first.join second).release id := by
  apply ext_of
  · intro other
    by_cases same : other = id <;> simp [join, release, Function.update_apply, same, elsewhere]
  · exact fun _ => Iff.rfl
  · simp only [join, release]
    omega
  · rfl

theorem join_release_right (elsewhere : first.bound id = none) (live : 0 < second.live) :
    first.join (second.release id) = (first.join second).release id := by
  apply ext_of
  · intro other
    by_cases same : other = id <;> simp [join, release, Function.update_apply, same, elsewhere]
  · exact fun _ => Iff.rfl
  · simp only [join, release]
    omega
  · rfl

theorem join_write_left (elsewhere : second.bound id = none) (change : Node → Node) :
    (first.write id change).join second = (first.join second).write id change := by
  apply ext_of
  · intro other
    by_cases same : other = id <;> simp [join, write, Function.update_apply, same, elsewhere]
  · exact fun _ => Iff.rfl
  · rfl
  · rfl

theorem join_write_right (elsewhere : first.bound id = none) (change : Node → Node) :
    first.join (second.write id change) = (first.join second).write id change := by
  apply ext_of
  · intro other
    by_cases same : other = id <;> simp [join, write, Function.update_apply, same, elsewhere]
  · exact fun _ => Iff.rfl
  · rfl
  · rfl

theorem join_reset (first second : Ledger) :
    first.reset.join second.reset = (first.join second).reset := rfl

end Join

end Ledger

/-! ## Censuses -/

/-- What is left of a ledger when one no longer asks for the nodes: which ids reach one, which were
ever given out, and the counts. -/
structure Census where
  /-- The ids that reach a node. -/
  domain : Set NodeId
  /-- The ids that were ever given out. -/
  issued : Set NodeId
  /-- The number of nodes. -/
  live : Nat
  /-- The number of allocations so far. -/
  allocations : Nat

namespace Census

/-- An id is given out. -/
def allocate (id : NodeId) (census : Census) : Census where
  domain := insert id census.domain
  issued := insert id census.issued
  live := census.live + 1
  allocations := census.allocations + 1

/-- An id is taken back. -/
def release (id : NodeId) (census : Census) : Census where
  domain := census.domain \ {id}
  issued := census.issued
  live := census.live - 1
  allocations := census.allocations

/-- Every id is taken back. -/
def reset (census : Census) : Census where
  domain := ∅
  issued := census.issued
  live := 0
  allocations := census.allocations

end Census

namespace Ledger

/-- The census of a ledger. -/
def census (ledger : Ledger) : Census where
  domain := { id | (ledger.bound id).isSome }
  issued := ledger.issued
  live := ledger.live
  allocations := ledger.allocations

@[simp] theorem census_allocate (ledger : Ledger) (id : NodeId) (span : Span) :
    (ledger.allocate id span).census = ledger.census.allocate id := by
  simp only [census, allocate, Census.allocate, Census.mk.injEq, and_true]
  ext other
  by_cases same : other = id <;> simp [Function.update_apply, same]

@[simp] theorem census_release (ledger : Ledger) (id : NodeId) :
    (ledger.release id).census = ledger.census.release id := by
  simp only [census, release, Census.release, Census.mk.injEq, and_true]
  ext other
  by_cases same : other = id <;> simp [Function.update_apply, same]

/-- A write moves no id. -/
@[simp] theorem census_write (ledger : Ledger) (id : NodeId) (change : Node → Node) :
    (ledger.write id change).census = ledger.census := by
  simp only [census, write, Census.mk.injEq, and_true]
  ext other
  by_cases same : other = id <;> simp [Function.update_apply, same]

@[simp] theorem census_reset (ledger : Ledger) : ledger.reset.census = ledger.census.reset := by
  simp only [census, reset, Census.reset, Census.mk.injEq, and_true]
  ext other
  simp

end Ledger

end MergedSpans
