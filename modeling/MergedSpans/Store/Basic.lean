import MergedSpans.Store.Pool

/-! # Stores

Where the nodes of a chain live: in a growing table alone, or in a pool. Whichever it is, a store
is a partial map from ids to nodes, and every change goes through the id it names.

* `Store` — the two kinds of stores.
* `Store.node`, `Store.get?` — the node under an id.
* `Store.allocate`, `Store.release`, `Store.write`, `Store.reset` — the changes.
-/

namespace MergedSpans

/-- Where nodes live. -/
inductive Store where
  /-- A growing table alone. -/
  | heap (table : Heap)
  /-- A pool. -/
  | pool (slab : Pool)
  deriving DecidableEq

namespace Store

instance : Inhabited Store := ⟨.heap .empty⟩

/-- The node under an id; an id that names none is a fault. -/
def node (store : Store) (id : NodeId) : Except Fault Node :=
  match store with
  | .heap table => table.node id
  | .pool slab => slab.node id

/-- The node under an id, if there is one. -/
def get? (store : Store) (id : NodeId) : Option Node := (store.node id).toOption

/-- Do what the kind of store asks for. -/
def byKind {α : Type} (onHeap : Action Heap α) (onPool : Action Pool α) : Action Store α
  | .heap table => (onHeap.run table).mapState .heap
  | .pool slab => (onPool.run slab).mapState .pool

/-- Put a node without neighbours into the store, under a new id. -/
def allocate (span : Span) : Action Store NodeId := byKind (Heap.allocate span) (Pool.allocate span)

/-- Take the node under an id out of the store. -/
def release (id : NodeId) : Action Store Unit := byKind (Heap.release id) (Pool.release id)

/-- Change the node under an id. -/
def write (id : NodeId) (change : Node → Node) : Action Store Unit :=
  byKind (Heap.write id change) (Pool.write id change)

/-- Take every node out of the store. -/
def reset : Action Store Unit := byKind (Action.update Heap.reset) Pool.reset

/-- The counters. -/
def counters : Store → Counters
  | .heap table => table.counters
  | .pool slab => slab.counters

/-- The number of nodes in the store. -/
def live (store : Store) : Nat := store.counters.livePool + store.counters.liveHeap

theorem get?_eq_some_iff {store : Store} {id : NodeId} {node : Node} :
    store.get? id = some node ↔ store.node id = .ok node := by
  unfold get?
  cases store.node id <;> simp [Except.toOption]

end Store

end MergedSpans
