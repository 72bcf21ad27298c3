import MergedSpans.Proofs.Store.Basic

/-! # Allocations are never taken back

However a change of a store ends, the number of its allocations does not go down; and unless it
allocates, neither of the two counts of allocations moves at all. So a store that has allocated
fewer than 2 ^ 32 times in the end has done so all along.

* `Gauge`, `Pool.gauge`, `Store.gauge` — the allocations, counted by tier, and what else only they
  change.
* `Store.moves_allocate` — an allocation adds to them.
* `Store.moves_release`, `Store.moves_write`, `Store.moves_reset` — no other change does.
* `Store.Closed` — a relation that all changes of a store respect; the number of allocations is the
  first example.
-/

namespace MergedSpans

open MergedSpans.Action

/-- What of a store no release, no write and no reset changes. -/
structure Gauge where
  /-- The number of slots in the slab. -/
  capacity : Nat
  /-- How often the store has allocated in the slab. -/
  hits : Nat
  /-- How often it has allocated past the slab. -/
  fallbacks : Nat
  /-- Has the slab ever been without a free slot when one was asked for? -/
  spilled : Bool

namespace Heap

theorem moves_allocate (span : Span) : (allocate span).Moves (Ascends Heap.allocations) := by
  refine Moves.bind (moves_update fun heap => Nat.le_succ _) fun _ => ?_
  refine Moves.bind moves_current fun heap => ?_
  split
  · exact Moves.bind (moves_update fun _ => Nat.le_refl _) fun _ => moves_pure _
  · refine Moves.ite ?_ (moves_fail _)
    exact Moves.bind (moves_update fun _ => Nat.le_refl _) fun _ => moves_pure _

theorem moves_release (id : NodeId) : (release id).Moves (Keeps Heap.allocations) := by
  refine Moves.bind (moves_read _) fun _ => ?_
  refine Moves.bind (moves_update fun _ => rfl) fun _ => ?_
  exact Moves.bind (moves_read _) fun _ => moves_update fun _ => rfl

theorem moves_write (id : NodeId) (change : Node → Node) :
    (write id change).Moves (Keeps Heap.allocations) :=
  Moves.bind (moves_read _) fun _ => moves_update fun _ => rfl

theorem allocations_foldl_vacateLive (heap : Heap) (indices : List Nat) :
    (indices.foldl vacateLive heap).allocations = heap.allocations := by
  induction indices generalizing heap with
  | nil => rfl
  | cons index rest induction =>
    rw [List.foldl_cons, induction]
    unfold vacateLive
    split <;> rfl

theorem moves_reset : (Action.update Heap.reset).Moves (Keeps Heap.allocations) :=
  moves_update fun heap => heap.allocations_foldl_vacateLive _

end Heap

namespace Pool

/-- What only an allocation changes. -/
def gauge (pool : Pool) : Gauge := ⟨pool.capacity, pool.hits, pool.fallbacks, pool.spilled⟩

/-- A change of one slot of the slab is no change of the gauge. -/
theorem gauge_modify (pool : Pool) (index : Nat) (change : Slot → Slot) :
    gauge { pool with slots := pool.slots.modify index change } = pool.gauge := by
  simp [gauge, capacity]

/-- How often the pool has allocated. -/
def allocations (pool : Pool) : Nat := pool.hits + pool.fallbacks

/-- The pool counts for itself what it sends to the overflow. -/
theorem moves_onOverflow {α : Type} (action : Action Heap α) :
    (onOverflow action).Moves (Keeps gauge) := fun _ => rfl

/-- Allocations that are counted by tier are counted together. -/
theorem ascends_of_keeps (before after : Pool) (kept : Keeps gauge before after) :
    Ascends allocations before after :=
  Nat.le_of_eq (congrArg (fun gauge => gauge.hits + gauge.fallbacks) kept.symm)

theorem moves_noteSpill : noteSpill.Moves (Ascends allocations) := by
  refine Moves.bind moves_current fun _ => Moves.ite (moves_pure _) ?_
  exact Moves.bind (moves_update fun _ => Nat.le_refl _) fun _ => moves_emit _

theorem moves_allocate (span : Span) : (allocate span).Moves (Ascends allocations) := by
  refine Moves.bind moves_current fun pool => ?_
  split
  · refine Moves.bind moves_current fun _ => ?_
    refine Moves.bind (moves_update fun pool => ?_) fun _ => moves_pure _
    exact Nat.add_le_add_right (Nat.le_succ _) _
  · refine Moves.bind moves_noteSpill fun _ => ?_
    refine Moves.bind (moves_update fun pool => Nat.le_succ _) fun _ => ?_
    refine Moves.bind ((moves_onOverflow _).mono ascends_of_keeps) fun id => ?_
    exact Moves.bind (moves_emit _) fun _ => moves_pure _

theorem moves_vacate (index : Nat) : (vacate index).Moves (Keeps gauge) := by
  refine Moves.bind (moves_update fun pool => pool.gauge_modify _ _) fun _ => ?_
  refine Moves.bind ?_ fun _ => ?_
  · refine Moves.bind moves_current fun _ => Moves.ite ?_ (moves_update fun _ => rfl)
    exact Moves.bind (moves_update fun _ => rfl) fun _ => moves_emit _
  · exact Moves.bind (moves_read _) fun _ => moves_update fun _ => rfl

theorem moves_release (id : NodeId) : (release id).Moves (Keeps gauge) := by
  unfold release
  split
  · exact moves_onOverflow _
  · exact Moves.bind (moves_read _) fun _ => moves_vacate _

theorem moves_write (id : NodeId) (change : Node → Node) :
    (write id change).Moves (Keeps gauge) := by
  unfold write
  split
  · exact moves_onOverflow _
  · exact Moves.bind (moves_read _) fun _ => moves_update fun pool => pool.gauge_modify _ _

theorem moves_reset : reset.Moves (Keeps gauge) := by
  refine Moves.bind moves_current fun pool => ?_
  refine Moves.bind (moves_forM (fun index => ?_) _) fun _ => moves_onOverflow _
  exact Moves.bind moves_current fun _ => Moves.ite (moves_vacate _) (moves_pure _)

end Pool

namespace Store

/-- Has the slab of the store ever been without a free slot when one was asked for? -/
def spilled : Store → Bool
  | .heap _ => false
  | .pool slab => slab.spilled

/-- What only an allocation changes. -/
def gauge (store : Store) : Gauge :=
  ⟨store.counters.capacity, store.counters.poolHits, store.counters.heapFallbacks, store.spilled⟩

theorem ascends_of_keeps (before after : Store) (kept : Keeps gauge before after) :
    Ascends allocations before after :=
  Nat.le_of_eq (congrArg (fun gauge => gauge.hits + gauge.fallbacks) kept.symm)

theorem moves_allocate (span : Span) : (allocate span).Moves (Ascends allocations)
  | .heap table => Nat.add_le_add_left (Heap.moves_allocate span table) 0
  | .pool slab => Pool.moves_allocate span slab

/-- What leaves the counts of either kind of store alone leaves those of a store alone. -/
theorem moves_byKind {α : Type} {onHeap : Action Heap α} {onPool : Action Pool α}
    (heap : onHeap.Moves (Keeps Heap.allocations)) (pool : onPool.Moves (Keeps Pool.gauge)) :
    (byKind onHeap onPool).Moves (Keeps gauge)
  | .heap table => congrArg (Gauge.mk 0 0 · false) (heap table)
  | .pool slab => pool slab

theorem moves_release (id : NodeId) : (release id).Moves (Keeps gauge) :=
  moves_byKind (Heap.moves_release id) (Pool.moves_release id)

theorem moves_write (id : NodeId) (change : Node → Node) : (write id change).Moves (Keeps gauge) :=
  moves_byKind (Heap.moves_write id change) (Pool.moves_write id change)

theorem moves_reset : reset.Moves (Keeps gauge) := moves_byKind Heap.moves_reset Pool.moves_reset

/-- Every change of a store respects the relation, whatever it is called with. -/
structure Closed (relation : Store → Store → Prop) : Prop where
  /-- Allocations do. -/
  allocate : ∀ span, (Store.allocate span).Moves relation
  /-- Releases do. -/
  release : ∀ id, (Store.release id).Moves relation
  /-- Writes do. -/
  write : ∀ id change, (Store.write id change).Moves relation
  /-- Resets do. -/
  reset : Store.reset.Moves relation

/-- The number of allocations never goes down. -/
theorem closed_ascends : Closed (Ascends allocations) where
  allocate := moves_allocate
  release := fun id => (moves_release id).mono ascends_of_keeps
  write := fun id change => (moves_write id change).mono ascends_of_keeps
  reset := moves_reset.mono ascends_of_keeps

end Store

end MergedSpans
