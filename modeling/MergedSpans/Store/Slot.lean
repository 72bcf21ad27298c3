import MergedSpans.Node

/-! # Slots

A slot is a place for one node. It counts how often it has been emptied; the count is the
generation that an id has to carry to reach the node inside. Generations are 32 bits wide, and a
slot that has used them all up is retired, so that no old id can ever reach a later node.

* `Content`, `Slot` — a slot and what may be in it.
* `Slot.resolve?` — the node that an id of a given generation reaches.
* `Slot.occupy`, `Slot.vacate`, `Slot.write` — putting in, taking out, and changing a node.
-/

namespace MergedSpans

/-- What is in a slot. -/
inductive Content where
  /-- Nothing; the slot may be used. -/
  | vacant
  /-- A node. -/
  | occupied (node : Node)
  /-- Nothing; the slot is never used again. -/
  | retired
  deriving DecidableEq, Inhabited

/-- A place for one node. -/
structure Slot where
  /-- How often the slot has been emptied. -/
  generation : UInt32
  /-- What is in it now. -/
  content : Content
  deriving DecidableEq, Inhabited

namespace Slot

/-- A slot that has never held a node. -/
def unused : Slot := ⟨0, .vacant⟩

/-- The node in the slot. -/
def node? (slot : Slot) : Option Node :=
  match slot.content with
  | .occupied node => some node
  | .vacant | .retired => none

/-- Does the slot hold a node? -/
def isLive (slot : Slot) : Bool := slot.node?.isSome

/-- Is the slot out of use for good? -/
def isRetired (slot : Slot) : Bool := slot.content == .retired

/-- The node that an id of the given generation reaches. -/
def resolve? (slot : Slot) (generation : UInt32) : Option Node :=
  if slot.generation = generation then slot.node? else none

/-- The slot with a node put in. -/
def occupy (node : Node) (slot : Slot) : Slot := ⟨slot.generation, .occupied node⟩

/-- The slot emptied. The generation moves on; one that has come round to zero retires the slot. -/
def vacate (slot : Slot) : Slot :=
  ⟨slot.generation + 1, if slot.generation + 1 = 0 then .retired else .vacant⟩

/-- The slot with the node inside changed. -/
def write (change : Node → Node) (slot : Slot) : Slot :=
  match slot.content with
  | .occupied node => ⟨slot.generation, .occupied (change node)⟩
  | .vacant | .retired => slot

@[simp] theorem node?_occupy (node : Node) (slot : Slot) :
    (slot.occupy node).node? = some node := rfl

@[simp] theorem generation_occupy (node : Node) (slot : Slot) :
    (slot.occupy node).generation = slot.generation := rfl

@[simp] theorem node?_vacate (slot : Slot) : slot.vacate.node? = none := by
  unfold vacate node?
  split
  · next occupied => split at occupied <;> cases occupied
  · rfl
  · rfl

@[simp] theorem generation_vacate (slot : Slot) :
    slot.vacate.generation = slot.generation + 1 := rfl

@[simp] theorem node?_write (change : Node → Node) (slot : Slot) :
    (slot.write change).node? = slot.node?.map change := by
  obtain ⟨generation, content⟩ := slot
  cases content <;> rfl

@[simp] theorem generation_write (change : Node → Node) (slot : Slot) :
    (slot.write change).generation = slot.generation := by
  unfold write
  split <;> rfl

theorem resolve?_eq_some_iff {slot : Slot} {generation : UInt32} {node : Node} :
    slot.resolve? generation = some node
      ↔ slot.generation = generation ∧ slot.content = .occupied node := by
  obtain ⟨current, content⟩ := slot
  unfold resolve? node?
  cases content <;> simp

end Slot

end MergedSpans
