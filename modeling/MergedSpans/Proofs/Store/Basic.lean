import MergedSpans.Store.Basic
import MergedSpans.Proofs.Store.Pool

/-! # What every store keeps

The two kinds of stores keep their ledgers in the same way, and from here on nothing else about
them is used.

* `Store.ledger`, `Store.Sound` — a store as seen through ids, and what holds of it between calls.
* `Store.allocations` — how often a store has allocated, in either tier.
* `Store.IsFresh` — the stores that a chain starts with.
* `allocate_yields`, `release_yields`, `write_yields`, `reset_yields` — what the changes do to the
  ledger of a sound store.
* `release_refuses`, `write_refuses` — an id that reaches nothing is refused without any change.
-/

namespace MergedSpans

namespace Store

/-- How often the store has allocated. -/
def allocations (store : Store) : Nat := store.counters.poolHits + store.counters.heapFallbacks

/-- A store that was never used: a table without slots, or a pool of any size. -/
def IsFresh (store : Store) : Prop := store = .heap .empty ∨ ∃ slots, store = .pool (.ofSlots slots)

/-- The ids that the store ever gave out. -/
def issued : Store → Set NodeId
  | .heap table => table.ledger.issued
  | .pool slab => slab.ledger.issued

/-- The store as seen through ids. -/
def ledger (store : Store) : Ledger := ⟨store.get?, store.issued, store.live, store.allocations⟩

/-- What holds of a store between calls. -/
def Sound : Store → Prop
  | .heap table => table.Sound
  | .pool slab => slab.Sound

theorem ledger_heap (table : Heap) : (Store.heap table).ledger = table.ledger := by
  apply Ledger.ext_of
  · exact fun _ => rfl
  · exact fun _ => Iff.rfl
  · exact Nat.zero_add _
  · exact Nat.zero_add _

theorem allocations_heap (table : Heap) : (Store.heap table).allocations = table.allocations :=
  Nat.zero_add _

theorem ledger_pool (slab : Pool) : (Store.pool slab).ledger = slab.ledger := rfl

theorem IsFresh.sound {store : Store} (fresh : store.IsFresh) : store.Sound := by
  rcases fresh with rfl | ⟨slots, rfl⟩
  · exact Heap.sound_empty
  · exact Pool.sound_ofSlots slots

theorem IsFresh.ledger_eq {store : Store} (fresh : store.IsFresh) : store.ledger = .empty := by
  rcases fresh with rfl | ⟨slots, rfl⟩
  · rw [ledger_heap, Heap.ledger_empty]
  · rw [ledger_pool, Pool.ledger_ofSlots]

/-- Only ids that were given out reach a node. -/
theorem mem_issued_of_get? {store : Store} {id : NodeId} {node : Node}
    (found : store.get? id = some node) : id ∈ store.ledger.issued := by
  -- In a pool the id is known to one of the two tiers, which gave it out.
  cases store with
  | heap table =>
    have onHeap : table.get? id = some node := found
    rw [Heap.get?_eq_bound] at onHeap
    exact Slots.mem_issued_of_bound onHeap
  | pool slab =>
    have either : slab.get? id = some node := found
    rw [Pool.get?_eq_or, Option.or_eq_some_iff] at either
    rcases either with onSlab | ⟨-, onHeap⟩
    · exact Or.inl (Slots.mem_issued_of_bound onSlab)
    · exact Or.inr (Slots.mem_issued_of_bound (Heap.get?_eq_bound _ ▸ onHeap))

theorem get?_eq_none_of_not_issued {store : Store} {id : NodeId}
    (fresh : id ∉ store.ledger.issued) : store.get? id = none :=
  Option.eq_none_iff_forall_ne_some.mpr fun _ found => fresh (mem_issued_of_get? found)

/-! ## Acting on either kind -/

section Kinds

variable {α : Type} {onHeap : Action Heap α} {onPool : Action Pool α} {value : α}
  {events : List Event}

theorem yields_byKind_heap {table after : Heap} (yields : onHeap.Yields table value after events) :
    (byKind onHeap onPool).Yields (.heap table) value (.heap after) events :=
  congrArg (Outcome.mapState Store.heap) yields

theorem yields_byKind_pool {slab after : Pool} (yields : onPool.Yields slab value after events) :
    (byKind onHeap onPool).Yields (.pool slab) value (.pool after) events :=
  congrArg (Outcome.mapState Store.pool) yields

theorem refuses_byKind_heap {table : Heap} {fault : Fault} (refuses : onHeap.Refuses table fault) :
    (byKind onHeap onPool).Refuses (.heap table) fault :=
  congrArg (Outcome.mapState Store.heap) refuses

theorem refuses_byKind_pool {slab : Pool} {fault : Fault} (refuses : onPool.Refuses slab fault) :
    (byKind onHeap onPool).Refuses (.pool slab) fault :=
  congrArg (Outcome.mapState Store.pool) refuses

end Kinds

/-! ## The changes -/

section Changes

variable {store : Store} {id : NodeId} {node : Node}

/-- An allocation gives out an id that was never given out before. -/
theorem allocate_yields (sound : store.Sound) (few : store.allocations < Arithmetic.halfLimit)
    (span : Span) :
    ∃ id after events, (allocate span).Yields store id after events ∧ after.Sound
      ∧ id ∉ store.ledger.issued ∧ after.ledger = store.ledger.allocate id span
      ∧ ∀ event ∈ events, event.ofStore = true := by
  cases store with
  | heap table =>
    obtain ⟨id, after, yields, kept, -, fresh, ledger⟩ :=
      Heap.allocate_yields sound (allocations_heap table ▸ few) span
    refine ⟨id, .heap after, [], yields_byKind_heap yields, kept, ?_, ?_, by simp⟩
    · rwa [ledger_heap]
    · rw [ledger_heap, ledger_heap, ledger]
  | pool slab =>
    obtain ⟨id, after, events, yields, kept, fresh, ledger, ofStore⟩ :=
      Pool.allocate_yields sound few span
    exact ⟨id, .pool after, events, yields_byKind_pool yields, kept, fresh, ledger, ofStore⟩

/-- The id that an allocation gives out was never given out before. -/
theorem not_mem_issued {span : Span} (sound : store.Sound)
    (few : store.allocations < Arithmetic.halfLimit)
    (allocated : ((allocate span).run store).answer = .ok id) : id ∉ store.ledger.issued := by
  obtain ⟨other, after, events, yields, -, new, -⟩ := allocate_yields sound few span
  obtain rfl := Except.ok.inj (allocated.symm.trans yields.answer_eq)
  exact new

/-- A release takes back the id that it names. -/
theorem release_yields (sound : store.Sound) (few : store.allocations < Arithmetic.halfLimit)
    (found : store.get? id = some node) :
    ∃ after, (release id).Yields store () after [] ∧ after.Sound
      ∧ after.ledger = store.ledger.release id := by
  cases store with
  | heap table =>
    obtain ⟨after, yields, kept, ledger, -⟩ :=
      Heap.release_yields sound (allocations_heap table ▸ few) found
    refine ⟨.heap after, yields_byKind_heap yields, kept, ?_⟩
    rw [ledger_heap, ledger_heap, ledger]
  | pool slab =>
    obtain ⟨after, yields, kept, ledger⟩ := Pool.release_yields sound few found
    exact ⟨.pool after, yields_byKind_pool yields, kept, ledger⟩

/-- A write changes the node of the id that it names. -/
theorem write_yields (sound : store.Sound) (found : store.get? id = some node)
    (change : Node → Node) :
    ∃ after, (write id change).Yields store () after [] ∧ after.Sound
      ∧ after.ledger = store.ledger.write id change := by
  cases store with
  | heap table =>
    obtain ⟨after, yields, kept, ledger⟩ := Heap.write_yields sound found change
    refine ⟨.heap after, yields_byKind_heap yields, kept, ?_⟩
    rw [ledger_heap, ledger_heap, ledger]
  | pool slab =>
    obtain ⟨after, yields, kept, ledger⟩ := Pool.write_yields sound found change
    exact ⟨.pool after, yields_byKind_pool yields, kept, ledger⟩

/-- A reset takes back every id. -/
theorem reset_yields (sound : store.Sound) (few : store.allocations < Arithmetic.halfLimit) :
    ∃ after, reset.Yields store () after [] ∧ after.Sound
      ∧ after.ledger = store.ledger.reset := by
  cases store with
  | heap table =>
    obtain ⟨kept, ledger⟩ := Heap.sound_reset sound (allocations_heap table ▸ few)
    refine ⟨.heap table.reset, yields_byKind_heap (Action.yields_update rfl), kept, ?_⟩
    rw [ledger_heap, ledger_heap, ledger]
  | pool slab =>
    obtain ⟨after, yields, kept, ledger⟩ := Pool.reset_yields sound few
    exact ⟨.pool after, yields_byKind_pool yields, kept, ledger⟩

/-! ## Refusals -/

/-- An id that reaches nothing is refused. -/
theorem error_of_get?_eq_none (absent : store.get? id = none) :
    ∃ fault, store.node id = .error fault := by
  unfold get? at absent
  cases answer : store.node id with
  | error fault => exact ⟨fault, rfl⟩
  | ok node => simp [answer, Except.toOption] at absent

/-- Nothing is released through an id that reaches nothing. -/
theorem release_refuses (absent : store.get? id = none) :
    ∃ fault, (release id).Refuses store fault := by
  obtain ⟨fault, refused⟩ := error_of_get?_eq_none absent
  refine ⟨fault, ?_⟩
  cases store with
  | heap table => exact refuses_byKind_heap (Heap.release_refuses refused)
  | pool slab => exact refuses_byKind_pool (Pool.release_refuses refused)

/-- Nothing is written through an id that reaches nothing. -/
theorem write_refuses (absent : store.get? id = none) (change : Node → Node) :
    ∃ fault, (write id change).Refuses store fault := by
  obtain ⟨fault, refused⟩ := error_of_get?_eq_none absent
  refine ⟨fault, ?_⟩
  cases store with
  | heap table => exact refuses_byKind_heap (Heap.write_refuses refused change)
  | pool slab => exact refuses_byKind_pool (Pool.write_refuses refused change)

end Changes

end Store

end MergedSpans
