import MergedSpans.Store.Bitmap
import MergedSpans.Store.Heap

/-! # A pool

A slab with a fixed number of slots, and a growing table for what does not fit. The free slot of
the slab that comes first is used first; a bitmap of the slots that are not free tells which that is.

* `Pool` — the slab, its overflow and its counters.
* `Pool.node` — the node under an id; an id that names none is a fault.
* `Pool.allocate`, `Pool.release`, `Pool.write`, `Pool.reset` — the changes.
-/

namespace MergedSpans

/-- A slab of slots with a growing table behind it. -/
structure Pool where
  /-- The slots of the slab. -/
  slots : Array Slot
  /-- The slots that are in use, or out of use for good. -/
  used : Bitmap
  /-- The table for nodes that find no slot. -/
  overflow : Heap := .empty
  /-- The number of nodes in the slab. -/
  live : Nat := 0
  /-- The number of slots that are out of use for good. -/
  retired : Nat := 0
  /-- The number of allocations served by the slab. -/
  hits : Nat := 0
  /-- The number of allocations that went past the slab. -/
  fallbacks : Nat := 0
  /-- Has the slab ever been without a free slot when one was asked for? -/
  spilled : Bool := false
  deriving DecidableEq

namespace Pool

/-- A pool whose slab has `slots` unused slots. -/
def ofSlots (slots : Nat) : Pool :=
  { slots := Array.replicate slots .unused, used := .clear slots }

instance : Inhabited Pool := ⟨ofSlots 0⟩

/-- The number of slots in the slab. -/
def capacity (pool : Pool) : Nat := pool.slots.size

/-- The first free slot of the slab. The last word of the bitmap may have places past the slab. -/
def firstFree? (pool : Pool) : Option Nat :=
  pool.used.firstClear?.filter fun index => decide (index < pool.capacity)

/-- Do something to the overflow. -/
def onOverflow {α : Type} (action : Action Heap α) : Action Pool α :=
  Action.within Pool.overflow (fun pool overflow => { pool with overflow }) action

/-- The node under an id. Slab ids past the slab and slab ids of a past generation are told apart,
in this order; every other id is the overflow's. -/
def node (pool : Pool) (id : NodeId) : Except Fault Node :=
  match id.tier with
  | .heap => pool.overflow.node id
  | .slab =>
    match pool.slots[id.index]? with
    | none => .error (.outsideSlab id pool.capacity)
    | some slot =>
      match slot.resolve? id.generation with
      | none => .error (.stale id slot.generation)
      | some node => .ok node

/-- Put a node without neighbours into a slot of the slab. -/
def allocateAt (index : Nat) (span : Span) : Action Pool NodeId := do
  let pool ← Action.current
  Action.update fun pool =>
    { pool with
      slots := pool.slots.modify index (·.occupy (.unlinked span))
      used := pool.used.set index
      live := pool.live + 1
      hits := pool.hits + 1 }
  return ⟨.slab, index, (pool.slots.getD index .unused).generation⟩

/-- Note that the slab has no free slot; the first time in the pool's life is an event. -/
def noteSpill : Action Pool Unit := do
  let pool ← Action.current
  if pool.spilled then pure ()
  else do
    Action.update fun pool => { pool with spilled := true }
    Action.emit (.exhausted pool.capacity)

/-- Put a node without neighbours into the overflow. -/
def spill (span : Span) : Action Pool NodeId := do
  noteSpill
  Action.update fun pool => { pool with fallbacks := pool.fallbacks + 1 }
  let id ← onOverflow (Heap.allocate span)
  Action.emit (.spilled span id)
  return id

/-- Put a node without neighbours into the first free slot, or else into the overflow. -/
def allocate (span : Span) : Action Pool NodeId := do
  let pool ← Action.current
  match pool.firstFree? with
  | some index => allocateAt index span
  | none => spill span

/-- Note that a slot has been emptied. One that is out of use for good is an event; every other one
is free again. -/
def noteVacated (index : Nat) : Action Pool Unit := do
  let pool ← Action.current
  if (pool.slots.getD index .unused).isRetired then do
    Action.update fun pool => { pool with retired := pool.retired + 1 }
    Action.emit (.retiring index)
  else Action.update fun pool => { pool with used := pool.used.unset index }

/-- Empty a slot of the slab. -/
def vacate (index : Nat) : Action Pool Unit := do
  Action.update fun pool => { pool with slots := pool.slots.modify index Slot.vacate }
  noteVacated index
  let live ← Action.read fun pool => Arithmetic.sub pool.live 1
  Action.update fun pool => { pool with live }

/-- Take the node under an id out of the pool. -/
def release (id : NodeId) : Action Pool Unit :=
  match id.tier with
  | .heap => onOverflow (Heap.release id)
  | .slab => do
    let _ ← Action.read (·.node id)
    vacate id.index

/-- Change the node under an id. -/
def write (id : NodeId) (change : Node → Node) : Action Pool Unit :=
  match id.tier with
  | .heap => onOverflow (Heap.write id change)
  | .slab => do
    let _ ← Action.read (·.node id)
    Action.update fun pool => { pool with slots := pool.slots.modify id.index (·.write change) }

/-- Empty one slot of the slab if it holds a node. -/
def vacateLive (index : Nat) : Action Pool Unit := do
  let pool ← Action.current
  if (pool.slots.getD index .unused).isLive then vacate index else pure ()

/-- Empty every slot of the slab that holds a node, in ascending order, and then the overflow. -/
def reset : Action Pool Unit := do
  let pool ← Action.current
  (List.range pool.capacity).forM vacateLive
  onOverflow (Action.update Heap.reset)

/-- The counters. -/
def counters (pool : Pool) : Counters :=
  ⟨pool.capacity, pool.live, pool.overflow.live, pool.hits, pool.fallbacks⟩

theorem node_eq_ok_iff_of_heap {pool : Pool} {id : NodeId} {node : Node}
    (onHeap : id.tier = .heap) : pool.node id = .ok node ↔ pool.overflow.node id = .ok node := by
  simp [Pool.node, onHeap]

theorem node_eq_ok_iff_of_slab {pool : Pool} {id : NodeId} {node : Node}
    (onSlab : id.tier = .slab) :
    pool.node id = .ok node
      ↔ pool.slots[id.index]? = some ⟨id.generation, .occupied node⟩ := by
  unfold Pool.node
  rw [onSlab]
  simp only
  split
  · next absent => simp [absent]
  · next slot present =>
    obtain ⟨generation, content⟩ := slot
    split
    · next unresolved =>
      simp only [reduceCtorEq, present, Option.some.injEq, Slot.mk.injEq, false_iff]
      rintro ⟨rfl, rfl⟩
      simp [Slot.resolve?, Slot.node?] at unresolved
    · next found resolved =>
      obtain ⟨rfl, rfl⟩ := Slot.resolve?_eq_some_iff.mp resolved
      simp [present]

end Pool

end MergedSpans
