import MergedSpans.Action
import MergedSpans.Store.Slot
import MergedSpans.Store.Counters

/-! # A growing store

A table of slots that grows when none is free. Slots are used again in the reverse order of
their release.

* `Heap` — the table, its stack of free slots and its counters.
* `Heap.node` — the node under an id; an id that names none is a fault.
* `Heap.allocate`, `Heap.release`, `Heap.write`, `Heap.reset` — the changes.
-/

namespace MergedSpans

/-- A table of slots that grows on demand. -/
structure Heap where
  /-- The slots. -/
  slots : Array Slot := #[]
  /-- The positions of the slots to use next, the most recently released first. -/
  free : List Nat := []
  /-- The number of nodes in the table. -/
  live : Nat := 0
  /-- The number of allocations so far. -/
  allocations : Nat := 0
  deriving DecidableEq

namespace Heap

/-- A table without slots. -/
def empty : Heap := {}

instance : Inhabited Heap := ⟨empty⟩

/-- Is the table without nodes? -/
def isEmpty (heap : Heap) : Bool := heap.live == 0

/-- The node under an id. Ids of another tier, of no slot, and of a past generation are told
apart, in this order. -/
def node (heap : Heap) (id : NodeId) : Except Fault Node :=
  if id.tier = .heap then
    match heap.slots[id.index]? with
    | none => .error (.unknownSlot id)
    | some slot =>
      match slot.resolve? id.generation with
      | none => .error (.stale id slot.generation)
      | some node => .ok node
  else .error (.foreignTier id)

/-- Put a node without neighbours into a free slot, or else into a new one. The counters move
before the table can turn out to be full. -/
def allocate (span : Span) : Action Heap NodeId := do
  Action.update fun heap =>
    { heap with live := heap.live + 1, allocations := heap.allocations + 1 }
  let heap ← Action.current
  match heap.free with
  | index :: rest =>
    Action.update fun heap =>
      { heap with slots := heap.slots.modify index (·.occupy (.unlinked span)), free := rest }
    return ⟨.heap, index, (heap.slots.getD index .unused).generation⟩
  | [] =>
    if heap.slots.size < Arithmetic.halfLimit then
      Action.update fun heap =>
        { heap with slots := heap.slots.push (Slot.unused.occupy (.unlinked span)) }
      return ⟨.heap, heap.slots.size, Slot.unused.generation⟩
    else Action.fail .heapFull

/-- Empty a slot and, unless that retires it, put it on top of the free ones. -/
def vacate (heap : Heap) (index : Nat) : Heap :=
  let slot := (heap.slots.getD index .unused).vacate
  { heap with
    slots := heap.slots.modify index Slot.vacate
    free := if slot.isRetired then heap.free else index :: heap.free }

/-- Take the node under an id out of the table. -/
def release (id : NodeId) : Action Heap Unit := do
  let _ ← Action.read (·.node id)
  Action.update (·.vacate id.index)
  let live ← Action.read fun heap => Arithmetic.sub heap.live 1
  Action.update fun heap => { heap with live }

/-- Change the node under an id. -/
def write (id : NodeId) (change : Node → Node) : Action Heap Unit := do
  let _ ← Action.read (·.node id)
  Action.update fun heap => { heap with slots := heap.slots.modify id.index (·.write change) }

/-- Empty one slot if it holds a node. -/
def vacateLive (heap : Heap) (index : Nat) : Heap :=
  if (heap.slots.getD index .unused).isLive then heap.vacate index else heap

/-- Empty every slot that holds a node, in ascending order. -/
def reset (heap : Heap) : Heap :=
  { (List.range heap.slots.size).foldl vacateLive heap with live := 0 }

/-- The counters. A table on its own has no slab, so every allocation counts as a fallback. -/
def counters (heap : Heap) : Counters := ⟨0, 0, heap.live, 0, heap.allocations⟩

theorem node_eq_ok_iff {heap : Heap} {id : NodeId} {node : Node} :
    heap.node id = .ok node
      ↔ id.tier = .heap ∧ heap.slots[id.index]? = some ⟨id.generation, .occupied node⟩ := by
  unfold Heap.node
  split
  · next onHeap =>
    split
    · next absent => simp [absent]
    · next slot present =>
      obtain ⟨generation, content⟩ := slot
      split
      · next unresolved =>
        simp only [reduceCtorEq, onHeap, present, true_and, Option.some.injEq, Slot.mk.injEq,
          false_iff]
        rintro ⟨rfl, rfl⟩
        simp [Slot.resolve?, Slot.node?] at unresolved
      · next found resolved =>
        obtain ⟨rfl, rfl⟩ := Slot.resolve?_eq_some_iff.mp resolved
        simp [onHeap, present]
  · next elsewhere => simp [elsewhere]

end Heap

end MergedSpans
