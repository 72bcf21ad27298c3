import MergedSpans.Node
import MergedSpans.Proofs.Span.Separated
import Mathlib.Data.List.Nodup
import Mathlib.Logic.Function.Basic

/-! # Cells and links

What a chain means is a list of cells: the ids of its nodes with their spans, in order. The links
are the way in which a store spells that list out.

* `Cell` — an id with the span under it.
* `separated_spansOf_cons`, `separated_spansOf_append` — separated spans, told by the cells.
* `firstId`, `lastId` — the ids at the ends of a list of cells, and what stands in for them where
  there are no cells.
* `Links` — a partial map from ids to nodes spells out a list of cells. `links_append` takes the
  list apart at any seam.
* `links_setNext`, `links_setPrev` — the outer links of a list can be changed alone.
-/

namespace MergedSpans

/-- A node as a member of a chain: its id and its span. -/
structure Cell where
  /-- The id. -/
  id : NodeId
  /-- The span under it. -/
  span : Span
  deriving DecidableEq

/-- The ids of cells. -/
abbrev idsOf (cells : List Cell) : List NodeId := cells.map Cell.id

/-- The spans of cells. -/
abbrev spansOf (cells : List Cell) : List Span := cells.map Cell.span

theorem idsOf_cons (cell : Cell) (rest : List Cell) :
    idsOf (cell :: rest) = cell.id :: idsOf rest := rfl

theorem idsOf_append (left right : List Cell) : idsOf (left ++ right) = idsOf left ++ idsOf right :=
  List.map_append

theorem spansOf_cons (cell : Cell) (rest : List Cell) :
    spansOf (cell :: rest) = cell.span :: spansOf rest := rfl

theorem spansOf_append (left right : List Cell) :
    spansOf (left ++ right) = spansOf left ++ spansOf right := List.map_append

/-! ## Cells with separated spans -/

section Spans

variable {cell : Cell} {cells left right : List Cell}

theorem formed_of_mem (separated : Separated (spansOf cells)) (member : cell ∈ cells) :
    cell.span.WellFormed := separated.formed _ (List.mem_map_of_mem member)

/-- Cells are separated when the first ends before all others, and those are separated. -/
theorem separated_spansOf_cons :
    Separated (spansOf (cell :: cells))
      ↔ cell.span.WellFormed ∧ (∀ later ∈ cells, cell.span.high < later.span.low)
        ∧ Separated (spansOf cells) := by
  rw [spansOf_cons, separated_cons, List.forall_mem_map]

/-- Cells are separated when both halves are, and the first ends before the second. -/
theorem separated_spansOf_append :
    Separated (spansOf (left ++ right))
      ↔ Separated (spansOf left) ∧ Separated (spansOf right)
        ∧ ∀ before ∈ left, ∀ later ∈ right, before.span.high < later.span.low := by
  rw [spansOf_append, separated_append]
  simp only [List.forall_mem_map]

end Spans

/-! ## The ends -/

/-- The id of the first cell, or `after` where there is none. -/
def firstId : List Cell → Option NodeId → Option NodeId
  | [], after => after
  | cell :: _, _ => some cell.id

/-- The id of the last cell, or `before` where there is none. -/
def lastId : Option NodeId → List Cell → Option NodeId
  | before, [] => before
  | _, cell :: rest => lastId (some cell.id) rest

@[simp] theorem firstId_nil (after : Option NodeId) : firstId [] after = after := rfl

@[simp] theorem firstId_cons (cell : Cell) (rest : List Cell) (after : Option NodeId) :
    firstId (cell :: rest) after = some cell.id := rfl

@[simp] theorem lastId_nil (before : Option NodeId) : lastId before [] = before := rfl

@[simp] theorem lastId_cons (before : Option NodeId) (cell : Cell) (rest : List Cell) :
    lastId before (cell :: rest) = lastId (some cell.id) rest := rfl

/-- The first of two lists has the first cell, unless it is empty. -/
@[simp] theorem firstId_append (left right : List Cell) (after : Option NodeId) :
    firstId (left ++ right) after = firstId left (firstId right after) := by
  cases left <;> rfl

/-- The second of two lists has the last cell, unless it is empty. -/
@[simp] theorem lastId_append (before : Option NodeId) (left right : List Cell) :
    lastId before (left ++ right) = lastId (lastId before left) right := by
  induction left generalizing before with
  | nil => rfl
  | cons cell rest induction => exact induction (some cell.id)

/-- With no node in front the last id is that of the last cell. -/
theorem lastId_none_eq (cells : List Cell) : lastId none cells = cells.getLast?.map Cell.id := by
  rcases List.eq_nil_or_concat' cells with rfl | ⟨init, last, rfl⟩
  · rfl
  · simp

/-- The id of a first cell is among the ids. -/
theorem mem_of_firstId {cells : List Cell} {id : NodeId} (first : firstId cells none = some id) :
    id ∈ idsOf cells := by
  cases cells with
  | nil => cases first
  | cons cell rest => exact Option.some_inj.mp first ▸ List.mem_cons_self

/-- The id of a last cell is among the ids. -/
theorem mem_of_lastId {cells : List Cell} {id : NodeId} (last : lastId none cells = some id) :
    id ∈ idsOf cells := by
  rcases List.eq_nil_or_concat' cells with rfl | ⟨init, cell, rfl⟩
  · cases last
  · rw [lastId_append, lastId_cons, lastId_nil, Option.some.injEq] at last
    simp [last]

theorem firstId_subset (cells : List Cell) : (firstId cells none).toList ⊆ idsOf cells :=
  fun _ first => mem_of_firstId (Option.mem_toList.mp first)

theorem lastId_subset (cells : List Cell) : (lastId none cells).toList ⊆ idsOf cells :=
  fun _ last => mem_of_lastId (Option.mem_toList.mp last)

/-- There is a last cell where there are cells. -/
theorem lastId_eq_some {before : Option NodeId} {cells : List Cell} (nonempty : cells ≠ []) :
    ∃ last ∈ cells, lastId before cells = some last.id := by
  obtain ⟨init, last, rfl⟩ := List.eq_nil_or_concat' cells |>.resolve_left nonempty
  exact ⟨last, by simp, by simp⟩

/-! ## Distinct ids -/

/-- Ids are distinct in two lists when they are so in each, and the lists share none. -/
theorem nodup_idsOf_append {left right : List Cell} :
    (idsOf (left ++ right)).Nodup
      ↔ (idsOf left).Nodup ∧ (idsOf right).Nodup ∧ ∀ id ∈ idsOf left, id ∉ idsOf right := by
  rw [idsOf_append, List.nodup_append]
  refine and_congr_right fun _ => and_congr_right fun _ => ?_
  constructor
  · intro apart id inLeft inRight
    exact apart id inLeft id inRight rfl
  · intro apart id inLeft other inRight same
    exact apart id inLeft (same ▸ inRight)

/-- Ids are distinct when they are so without one cell, and that cell has none of them. -/
theorem nodup_idsOf_middle {left right : List Cell} {cell : Cell} :
    (idsOf (left ++ cell :: right)).Nodup
      ↔ cell.id ∉ idsOf (left ++ right) ∧ (idsOf (left ++ right)).Nodup := by
  rw [idsOf_append, idsOf_append, idsOf_cons, List.nodup_middle, List.nodup_cons]

theorem not_mem_idsOf_append {id : NodeId} {left right : List Cell} :
    id ∉ idsOf (left ++ right) ↔ id ∉ idsOf left ∧ id ∉ idsOf right := by
  rw [idsOf_append, List.mem_append, not_or]

/-- No cell has an id that is not among theirs. -/
theorem not_mem_singleton {id : NodeId} {cells : List Cell} (apart : id ∉ idsOf cells) :
    ∀ other ∈ idsOf cells, other ∉ [id] :=
  fun _ member same => apart (List.mem_singleton.mp same ▸ member)

/-! ## Links -/

section Links

variable {bound : NodeId → Option Node} {before after : Option NodeId} {cell : Cell}
  {cells left right : List Cell}

/-- The partial map spells out the cells, between a node before them and one after them. -/
def Links (bound : NodeId → Option Node) :
    (before : Option NodeId) → List Cell → (after : Option NodeId) → Prop
  | _, [], _ => True
  | before, cell :: rest, after =>
    bound cell.id = some ⟨cell.span, before, firstId rest after⟩
      ∧ Links bound (some cell.id) rest after

@[simp] theorem links_nil : Links bound before [] after := trivial

@[simp] theorem links_cons :
    Links bound before (cell :: cells) after
      ↔ bound cell.id = some ⟨cell.span, before, firstId cells after⟩
        ∧ Links bound (some cell.id) cells after := Iff.rfl

/-- The links of two lists in a row are those of each list; at the seam each list stands in for
the neighbour of the other. -/
theorem links_append :
    Links bound before (left ++ right) after
      ↔ Links bound before left (firstId right after)
        ∧ Links bound (lastId before left) right after := by
  -- Induction on the first list: the node of its first cell is the same on both sides, because the
  -- id behind that cell is.
  induction left generalizing before with
  | nil => simp
  | cons cell rest induction => simp [induction, and_assoc]

/-- The node of a cell in the middle points to both of its neighbours. -/
theorem Links.node_eq (links : Links bound before (left ++ cell :: right) after) :
    bound cell.id = some ⟨cell.span, lastId before left, firstId right after⟩ :=
  (links_append.mp links).2.1

/-- Every linked id reaches a node, and that node has the span of the cell. -/
theorem Links.reaches (links : Links bound before cells after) (member : cell ∈ cells) :
    ∃ node, bound cell.id = some node ∧ node.span = cell.span := by
  obtain ⟨left, right, rfl⟩ := List.append_of_mem member
  exact ⟨_, links.node_eq, rfl⟩

/-- Every linked id reaches a node. -/
theorem Links.isSome {id : NodeId} (links : Links bound before cells after)
    (member : id ∈ idsOf cells) : (bound id).isSome := by
  obtain ⟨cell, listed, rfl⟩ := List.mem_map.mp member
  obtain ⟨node, reached, -⟩ := links.reaches listed
  rw [reached]
  rfl

/-- Whatever spells out the same cells has the same nodes under their ids. -/
theorem Links.agree {bound' : NodeId → Option Node} {id : NodeId}
    (links : Links bound before cells after) (same : Links bound' before cells after)
    (member : id ∈ idsOf cells) : bound' id = bound id := by
  obtain ⟨cell, listed, rfl⟩ := List.mem_map.mp member
  obtain ⟨left, right, rfl⟩ := List.append_of_mem listed
  rw [links.node_eq, same.node_eq]

/-- Separated spans have distinct nodes: a node that occurs twice would have to start behind its own
end. -/
theorem Links.nodup (links : Links bound before cells after)
    (separated : Separated (spansOf cells)) : (idsOf cells).Nodup := by
  refine List.pairwise_map.mpr ((List.pairwise_map.mp separated.apart).imp_of_mem ?_)
  intro first second firstMember secondMember apart same
  obtain ⟨node, reached, span⟩ := links.reaches firstMember
  obtain ⟨other, found, otherSpan⟩ := links.reaches secondMember
  rw [same, found] at reached
  obtain rfl := Option.some.inj reached
  have formed : first.span.low < first.span.high := formed_of_mem separated firstMember
  rw [← otherSpan, span] at apart
  exact UInt64.lt_irrefl _ (UInt64.lt_trans formed apart)

/-- Links depend on the linked nodes alone. -/
theorem Links.congr {bound' : NodeId → Option Node} (links : Links bound before cells after)
    (same : ∀ id ∈ idsOf cells, bound' id = bound id) : Links bound' before cells after := by
  induction cells generalizing before with
  | nil => trivial
  | cons cell rest induction =>
    obtain ⟨node, linked⟩ := links
    refine ⟨?_, induction linked fun id member => same id (List.mem_cons_of_mem _ member)⟩
    rw [same cell.id List.mem_cons_self, node]

/-- The forward link of the last node can be changed alone. -/
theorem links_setNext (links : Links bound before (left ++ [cell]) after)
    (distinct : (idsOf (left ++ [cell])).Nodup) (target : Option NodeId) :
    Links (Function.update bound cell.id
        ((bound cell.id).map fun node => { node with next := target }))
      before (left ++ [cell]) target := by
  have apart : cell.id ∉ idsOf left := by
    have outside := (nodup_idsOf_middle.mp distinct).1
    rwa [List.append_nil] at outside
  have node := links.node_eq
  rw [links_append] at links ⊢
  refine ⟨links.1.congr ?_, ?_, trivial⟩
  · intro id member
    exact Function.update_of_ne (ne_of_mem_of_not_mem member apart) _ _
  · rw [Function.update_self, node]
    rfl

/-- The backward link of the first node can be changed alone. -/
theorem links_setPrev (links : Links bound before (cell :: right) after)
    (distinct : (idsOf (cell :: right)).Nodup) (target : Option NodeId) :
    Links (Function.update bound cell.id
        ((bound cell.id).map fun node => { node with prev := target }))
      target (cell :: right) after := by
  have apart : cell.id ∉ idsOf right := (List.nodup_cons.mp distinct).1
  obtain ⟨node, linked⟩ := links
  refine ⟨?_, linked.congr ?_⟩
  · rw [Function.update_self, node]
    rfl
  · intro id member
    exact Function.update_of_ne (ne_of_mem_of_not_mem member apart) _ _

end Links

end MergedSpans
