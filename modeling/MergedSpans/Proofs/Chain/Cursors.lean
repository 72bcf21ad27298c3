import MergedSpans.Chain.Traversal
import MergedSpans.Proofs.Chain.Calls

/-! # Cursors that are kept

A cursor keeps no hold on its chain, and calls may be made between its creation and its use. It
still never reads a node that it was not made for: as long as its node is linked it reads that one,
and afterwards it is refused for good, even when the node's slot has been handed out again.

* `Chain.Gives` — the chain hands the cursor out.
* `Chain.Reads` — what a cursor at a node reads, by whether the node is linked.
* `Owned.reads` — every cursor of a chain that owns its store reads so.
* `kept_cursor` — every cursor that was ever handed out reads so, and is refused for good once its
  node has left.
-/

namespace MergedSpans

namespace Chain

open MergedSpans.Action

variable {chain : Chain} {cells left right : List Cell} {cell : Cell} {id : NodeId}

/-- The chain hands the cursor out: as the position of the first span, or as the one after some
other. -/
def Gives (chain : Chain) (cursor : Cursor) : Prop :=
  cursor = chain.start ∨ ∃ earlier, chain.next earlier = .ok cursor

/-! ## One look through a cursor -/

theorem next_some (chain : Chain) (id : NodeId) :
    chain.next ⟨some id⟩ = (do let node ← chain.node id; return ⟨node.next⟩) := rfl

/-- A cursor at a linked node reads its span. -/
theorem Linked.get_eq (linked : chain.Linked (left ++ cell :: right)) :
    chain.get ⟨some cell.id⟩ = .ok cell.span := spanAt_of_links linked.links

/-- A cursor at a linked node moves to the node behind it. -/
theorem Linked.next_eq (linked : chain.Linked (left ++ cell :: right)) :
    chain.next ⟨some cell.id⟩ = .ok ⟨firstId right none⟩ := by
  rw [next_some, node_of_links linked.links]
  rfl

/-- A cursor whose id reaches nothing is refused, whichever way it is used. -/
theorem refused_of_get?_eq_none (absent : chain.store.get? id = none) :
    ∃ fault, chain.get ⟨some id⟩ = .error fault ∧ chain.next ⟨some id⟩ = .error fault := by
  obtain ⟨fault, refused⟩ := Store.error_of_get?_eq_none absent
  have node : chain.node id = .error fault := refused
  refine ⟨fault, ?_, ?_⟩
  · show chain.spanAt id = _
    rw [spanAt, node]
    rfl
  · rw [next_some, node]
    rfl

/-- What a cursor at a node reads: the node's own span, and the cursor of the node behind it, for
just as long as the node is linked. -/
structure Reads (chain : Chain) (cells : List Cell) (id : NodeId) : Prop where
  /-- The chain is linked up to the cells. -/
  linked : chain.Linked cells
  /-- Their spans are the spans of the chain. -/
  spans_eq : chain.spans = .ok (spansOf cells)
  /-- A span is read just when the node is linked. -/
  get_iff : (∃ span, chain.get ⟨some id⟩ = .ok span) ↔ id ∈ idsOf cells
  /-- The cursor moves on just when the node is linked. -/
  next_iff : (∃ following, chain.next ⟨some id⟩ = .ok following) ↔ id ∈ idsOf cells
  /-- The span that is read is the node's own entry among the spans. -/
  get_eq : ∀ left cell right, cells = left ++ cell :: right → cell.id = id →
    chain.get ⟨some id⟩ = .ok cell.span
  /-- The cursor moves to the node behind its own, and behind the last one past the end. -/
  next_eq : ∀ left cell right, cells = left ++ cell :: right → cell.id = id →
    chain.next ⟨some id⟩ = .ok ⟨firstId right none⟩

/-- Every cursor at a node reads so on a chain that owns its store. -/
theorem Owned.reads (owned : chain.Owned cells) (id : NodeId) : chain.Reads cells id := by
  have get_eq : ∀ left cell right, cells = left ++ cell :: right → cell.id = id →
      chain.get ⟨some id⟩ = .ok cell.span := by
    rintro left cell right rfl rfl
    exact owned.toLinked.get_eq
  have next_eq : ∀ left cell right, cells = left ++ cell :: right → cell.id = id →
      chain.next ⟨some id⟩ = .ok ⟨firstId right none⟩ := by
    rintro left cell right rfl rfl
    exact owned.toLinked.next_eq
  by_cases member : id ∈ idsOf cells
  · obtain ⟨cell, inside, same⟩ := List.mem_map.mp member
    obtain ⟨left, right, split⟩ := List.append_of_mem inside
    exact ⟨owned.toLinked, owned.spans_eq,
      iff_of_true ⟨_, get_eq left cell right split same⟩ member,
      iff_of_true ⟨_, next_eq left cell right split same⟩ member, get_eq, next_eq⟩
  · obtain ⟨fault, notRead, notMoved⟩ := refused_of_get?_eq_none (owned.get?_eq_none member)
    exact ⟨owned.toLinked, owned.spans_eq, iff_of_false (by simp [notRead]) member,
      iff_of_false (by simp [notMoved]) member, get_eq, next_eq⟩

/-! ## Cursors over calls -/

/-- Every cursor that is handed out stands at a linked node, or past the end. -/
theorem Owned.mem_of_gives (owned : chain.Owned cells) (gives : chain.Gives ⟨some id⟩) :
    id ∈ idsOf cells := by
  rcases gives with atStart | ⟨⟨node⟩, moved⟩
  · have head : chain.head = some id := (congrArg Cursor.node atStart).symm
    exact mem_of_firstId (owned.head_eq ▸ head)
  · cases node with
    | none => cases moved
    | some earlier =>
      -- It was reached from a linked node, so it is the node behind that one.
      have member := (owned.reads earlier).next_iff.mp ⟨_, moved⟩
      obtain ⟨cell, inside, rfl⟩ := List.mem_map.mp member
      obtain ⟨left, right, rfl⟩ := List.append_of_mem inside
      rw [owned.toLinked.next_eq] at moved
      cases right with
      | nil => cases moved
      | cons behind rest =>
        cases moved
        simp

/-- A cursor that was handed out reads its node after calls that go on behind its back; and once
the node has left, it is refused after all calls to come. -/
theorem Ordered.reads_after (ordered : chain.Ordered cells) (gives : chain.Gives ⟨some id⟩)
    (between later : List Op) (formed : ∀ op ∈ between, op.WellFormed)
    (few : (Action.after perform later (Action.after perform between chain)).allocations
      < Arithmetic.halfLimit) :
    ∃ remaining, (Action.after perform between chain).Reads remaining id
      ∧ (id ∉ idsOf remaining →
        ∃ fault, (Action.after perform later (Action.after perform between chain)).get ⟨some id⟩
            = .error fault
          ∧ (Action.after perform later (Action.after perform between chain)).next ⟨some id⟩
            = .error fault) := by
  have fewBetween := Nat.lt_of_le_of_lt (allocations_le_after later _) few
  obtain ⟨⟨⟨remaining, orderedAfter⟩, -⟩, -⟩ := ordered.runs between formed fewBetween
  refine ⟨remaining, orderedAfter.reads id, fun unlinked => ?_⟩
  have moved := moves_perform Store.closed_precedes
  -- The id was given out before the cursor was, so it can only have been taken back.
  obtain ⟨node, found⟩ := Option.isSome_iff_exists.mp
    (ordered.isSome_iff.mpr (ordered.mem_of_gives gives))
  have issued := (inherits_after moved between ordered.sound fewBetween).issued_subset
    (Store.mem_issued_of_get? found)
  have stale := (inherits_after moved later orderedAfter.sound few).stale id
    ⟨issued, orderedAfter.get?_eq_none unlinked⟩
  exact refused_of_get?_eq_none stale.2

/-- A chain over a store that was never used hands a cursor out after some calls, and further calls
with well-formed spans are made behind its back. At any later time the cursor reads its node if that
one is still linked, with its current span and the node that is now behind it. If it is not, the
cursor is refused, and so it is after all calls to come, whatever slots those take. -/
theorem kept_cursor {store : Store} (fresh : store.IsFresh) (participant : Participant)
    (before between later : List Op) (formed : ∀ op ∈ before ++ between, op.WellFormed)
    (few : (Action.after perform (before ++ between ++ later)
      (.empty participant store)).allocations < Arithmetic.halfLimit)
    (gives : (Action.after perform before (.empty participant store)).Gives ⟨some id⟩) :
    let chain := Action.after perform (before ++ between) (.empty participant store)
    let last := Action.after perform (before ++ between ++ later) (.empty participant store)
    ∃ cells, chain.Reads cells id
      ∧ (id ∉ idsOf cells →
        ∃ fault, last.get ⟨some id⟩ = .error fault ∧ last.next ⟨some id⟩ = .error fault) := by
  simp only [after_append] at few ⊢
  rw [List.forall_mem_append] at formed
  have fewBefore := Nat.lt_of_le_of_lt (allocations_le_after between _)
    (Nat.lt_of_le_of_lt (allocations_le_after later _) few)
  obtain ⟨⟨⟨cells, ordered⟩, -⟩, -⟩ :=
    (ordered_empty fresh participant).runs before formed.1 fewBefore
  exact ordered.reads_after gives between later formed.2 few

/-- A cursor at the only slot of a pool is refused once a clearing has taken its node, also when an
insertion has taken the slot again. -/
theorem kept_cursor_past_clearing :
    let start : Chain := .empty default (.pool (.ofSlots 1))
    let last := Action.after perform [.insert ⟨0, 10⟩, .clear, .insert ⟨20, 30⟩] start
    let old : NodeId := ⟨.slab, 0, 0⟩
    let new : NodeId := ⟨.slab, 0, 1⟩
    (Action.after perform [.insert ⟨0, 10⟩] start).Gives ⟨some old⟩
      ∧ last.allocations < Arithmetic.halfLimit ∧ last.get ⟨some new⟩ = .ok ⟨20, 30⟩
      ∧ ∃ fault, last.get ⟨some old⟩ = .error fault ∧ last.next ⟨some old⟩ = .error fault := by
  intro start last old new
  have gives : (Action.after perform [.insert ⟨0, 10⟩] start).Gives ⟨some old⟩ :=
    Or.inl (by decide +kernel)
  have few : last.allocations < Arithmetic.halfLimit := by decide +kernel
  have taken : last.get ⟨some new⟩ = .ok ⟨20, 30⟩ := by decide +kernel
  obtain ⟨cells, reads, refused⟩ := kept_cursor (Or.inr ⟨1, rfl⟩) default [.insert ⟨0, 10⟩] [.clear]
    [.insert ⟨20, 30⟩] (by decide) few gives
  -- After the clearing there are no spans, so the node is not linked.
  have none : (Action.after perform [.insert ⟨0, 10⟩, .clear] start).spans = .ok [] := by
    decide +kernel
  have unlinked : old ∉ idsOf cells := by
    have same := reads.spans_eq.symm.trans none
    rw [List.map_eq_nil_iff.mp (Except.ok.inj same)]
    exact List.not_mem_nil
  exact ⟨gives, few, taken, refused unlinked⟩

end Chain

end MergedSpans
