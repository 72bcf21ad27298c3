import MergedSpans.Proofs.Chain.Growth
import MergedSpans.Proofs.Chain.Surgery

/-! # Surgery on well-linked chains

On every well-linked chain the link surgeries are operations on the sequence of its nodes, whatever
spans stand in it: ascending or not, touching or not, well formed or not. They leave a well-linked
chain again, so any number of them can follow each other, and a node that enters and leaves right
away has changed no other.

* `Chain.WellLinked` — the links of a chain form a sequence, over a store that there is.
* `Cells.ahead`, `Cells.onward` — the two parts of a sequence on either side of a position.
* `WellLinked.spliceBefore_yields`, `WellLinked.discard_yields`, `WellLinked.merge_yields` — what
  each surgery does to the sequence.
* `WellLinked.discard_restores` — a node that enters and leaves has changed nothing.
* `surgeries_edit_sequence` — all of them together.
-/

namespace MergedSpans

open MergedSpans.Action

/-! ## Positions -/

namespace Cells

/-- The cells before the one at a position; without a position, all of them. -/
def ahead (position : Option NodeId) (cells : List Cell) : List Cell :=
  cells.takeWhile (some ·.id ≠ position)

/-- The cells from the one at a position on; without a position, none. -/
def onward (position : Option NodeId) (cells : List Cell) : List Cell :=
  cells.dropWhile (some ·.id ≠ position)

variable {position : Option NodeId} {cells : List Cell}

@[simp] theorem ahead_append_onward (position : Option NodeId) (cells : List Cell) :
    ahead position cells ++ onward position cells = cells := List.takeWhile_append_dropWhile

/-- Where a position is taken up by a cell, or by none at all, the cells from there on start with
it. -/
theorem firstId_onward (taken : ∀ next ∈ position, next ∈ idsOf cells) :
    firstId (onward position cells) none = position := by
  unfold onward
  induction cells with
  | nil =>
    cases position with
    | none => rfl
    | some next => exact absurd (taken next rfl) List.not_mem_nil
  | cons cell rest induction =>
    rw [List.dropWhile_cons]
    by_cases here : some cell.id = position
    · simp [here]
    · rw [if_pos (decide_eq_true here)]
      refine induction fun next named => (List.mem_cons.mp (taken next named)).resolve_left ?_
      rintro rfl
      exact here named.symm

end Cells

namespace Chain

variable {chain spliced : Chain} {cells left right : List Cell} {cell : Cell} {id : NodeId}
  {node : Node} {span : Span}

/-! ## Well-linked chains -/

/-- Calls of any kind and number have led to the chain's store, and in it the links of the chain
form a sequence: they lead from the recorded first node through all cells, each of which points back
to the one before it, up to the recorded last node; no node occurs twice, and the recorded length
is their number. Nothing is said of their spans, nor of other nodes in the store. -/
structure WellLinked (chain : Chain) (cells : List Cell) : Prop extends Spells chain cells where
  /-- Calls have led to the store. -/
  reachable : chain.store.Reachable

/-- Whatever is done by changes of the store leads to a store that there is. -/
theorem WellLinked.reachable_of_moves {α : Type} {action : Action Chain α}
    (linked : chain.WellLinked cells) (moves : action.Moves (Across Store.LeadsTo)) {value : α}
    {after : Chain} {events : List Event} (yields : action.Yields chain value after events) :
    after.store.Reachable := by
  have led : Across Store.LeadsTo chain (action.run chain).state := moves chain
  rw [yields.state_eq] at led
  exact linked.reachable.leadsTo led

/-! ## The three surgeries -/

/-- A node that is not linked enters at a seam. -/
theorem WellLinked.spliceBefore_yields (linked : chain.WellLinked (left ++ right))
    (found : chain.store.get? id = some node) (apart : id ∉ idsOf (left ++ right)) :
    ∃ after, (spliceBefore id (firstId right none)).Yields chain () after []
      ∧ after.WellLinked (left ++ ⟨id, node.span⟩ :: right)
      ∧ after.participant = chain.participant
      ∧ Spares (vicinity (lastId none left) id (firstId right none)) chain after := by
  obtain ⟨after, yields, spells, -, participant_eq, -, spares⟩ :=
    linked.toSpells.spliceBefore_yields linked.reachable.tidy found apart
  have reachable :=
    linked.reachable_of_moves (moves_spliceBefore Store.closed_leadsTo _ _) yields
  exact ⟨after, yields, ⟨spells, reachable⟩, participant_eq, spares⟩

/-- A linked node leaves. -/
theorem WellLinked.discard_yields (linked : chain.WellLinked (left ++ cell :: right)) :
    ∃ after events, (discard cell.id).Yields chain (firstId right none) after
        (.deleting chain.participant cell.span :: events)
      ∧ after.WellLinked (left ++ right)
      ∧ Releases (vicinity (lastId none left) cell.id (firstId right none)) cell.id chain after
        events := by
  obtain ⟨after, events, yields, spells, releases⟩ :=
    linked.toSpells.discard_yields linked.reachable.tidy
  have reachable := linked.reachable_of_moves (moves_discard Store.closed_leadsTo _) yields
  exact ⟨after, events, yields, ⟨spells, reachable⟩, releases⟩

/-- A linked node takes in the one behind it, which leaves. -/
theorem WellLinked.merge_yields {first second : Cell}
    (linked : chain.WellLinked (left ++ first :: second :: right))
    (ordered : first.span.low ≤ second.span.low) :
    ∃ after events, (merge first.id second.id).Yields chain () after
        (.merging chain.participant first.span second.span (hull first.span second.span) :: events)
      ∧ after.WellLinked (left ++ ⟨first.id, hull first.span second.span⟩ :: right)
      ∧ Releases (vicinity (some first.id) second.id (firstId right none)) second.id chain after
        events := by
  obtain ⟨after, events, yields, spells, releases⟩ :=
    linked.toSpells.merge_yields linked.reachable.tidy ordered
  have reachable := linked.reachable_of_moves (moves_merge Store.closed_leadsTo _ _) yields
  exact ⟨after, events, yields, ⟨spells, reachable⟩, releases⟩

/-- A node and its neighbours are linked, but for the node itself. -/
theorem vicinity_subset (left right : List Cell) (id : NodeId) :
    vicinity (lastId none left) id (firstId right none) ⊆ id :: idsOf (left ++ right) := by
  intro other near
  have before := lastId_subset left (a := other)
  have behind := firstId_subset right (a := other)
  simp only [vicinity, List.mem_append, List.mem_cons, idsOf_append] at near before behind ⊢
  tauto

/-- A node that has entered at a seam and leaves again has changed nothing but itself. -/
theorem WellLinked.discard_restores (linked : chain.WellLinked (left ++ right))
    (entered : spliced.WellLinked (left ++ ⟨id, span⟩ :: right))
    (spares : Spares (vicinity (lastId none left) id (firstId right none)) chain spliced) :
    ∃ after events, (discard id).Yields spliced (firstId right none) after
        (.deleting spliced.participant span :: events)
      ∧ after.head = chain.head ∧ after.tail = chain.tail ∧ after.length = chain.length
      ∧ Spares [id] chain after := by
  obtain ⟨after, events, yields, again, releases⟩ := entered.discard_yields
  refine ⟨after, events, yields, again.head_eq.trans linked.head_eq.symm,
    again.tail_eq.trans linked.tail_eq.symm, again.length_eq.trans linked.length_eq.symm, ?_⟩
  intro other outside
  by_cases member : other ∈ idsOf (left ++ right)
  · -- The same cells are spelled out before and after, so their nodes are the same.
    exact linked.links.agree again.links member
  · have far : other ∉ vicinity (lastId none left) id (firstId right none) := by
      intro near
      exact (List.mem_cons.mp (vicinity_subset left right id near)).elim
        (fun same => outside (List.mem_singleton.mpr same)) member
    rw [releases.elsewhere other far, spares other far]

/-- On a well-linked chain, whatever its spans are, the link surgeries edit the sequence and nothing
else. A node of the store that is not linked enters directly before any linked node, or last; when
it leaves right away, both ends, the length and every other node are as they were. A linked node
leaves, and the answer is the one that was behind it. A linked node takes in the one behind it where
that starts no earlier: its span then reaches to the later of their two ends, and the other leaves.
What is left is well linked again; a node that leaves is out of the store; and of all nodes, linked
or not, none is touched but the one that enters or leaves and those on both sides of it. -/
theorem surgeries_edit_sequence (linked : chain.WellLinked cells) :
    (∀ id node successor, chain.store.get? id = some node → id ∉ idsOf cells →
      (∀ next ∈ successor, next ∈ idsOf cells) →
      ∃ spliced, (spliceBefore id successor).Yields chain () spliced []
        ∧ spliced.WellLinked
          (Cells.ahead successor cells ++ ⟨id, node.span⟩ :: Cells.onward successor cells)
        ∧ spliced.participant = chain.participant
        ∧ Spares (vicinity (lastId none (Cells.ahead successor cells)) id successor) chain spliced
        ∧ ∃ restored events, (discard id).Yields spliced successor restored
            (.deleting chain.participant node.span :: events)
          ∧ restored.head = chain.head ∧ restored.tail = chain.tail
          ∧ restored.length = chain.length ∧ Spares [id] chain restored)
      ∧ (∀ left cell right, cells = left ++ cell :: right →
        ∃ after events, (discard cell.id).Yields chain (firstId right none) after
            (.deleting chain.participant cell.span :: events)
          ∧ after.WellLinked (left ++ right)
          ∧ Releases (vicinity (lastId none left) cell.id (firstId right none)) cell.id chain after
            events)
      ∧ ∀ left first second right, cells = left ++ first :: second :: right →
        first.span.low ≤ second.span.low →
        let merged : Span := ⟨first.span.low, max first.span.high second.span.high⟩
        ∃ after events, (merge first.id second.id).Yields chain () after
            (.merging chain.participant first.span second.span merged :: events)
          ∧ after.WellLinked (left ++ ⟨first.id, merged⟩ :: right)
          ∧ Releases (vicinity (some first.id) second.id (firstId right none)) second.id chain after
            events := by
  refine ⟨fun id node successor found apart taken => ?_, ?_, ?_⟩
  · -- The sequence has a seam directly before the successor.
    have position := Cells.firstId_onward taken
    rw [← Cells.ahead_append_onward successor cells] at linked apart
    obtain ⟨spliced, yields, entered, participant_eq, spares⟩ :=
      linked.spliceBefore_yields found apart
    obtain ⟨restored, events, undoes, same⟩ := linked.discard_restores entered spares
    rw [position] at yields spares undoes
    rw [participant_eq] at undoes
    exact ⟨spliced, yields, entered, participant_eq, spares, restored, events, undoes, same⟩
  · rintro left cell right rfl
    exact linked.discard_yields
  · rintro left first second right rfl ordered
    exact linked.merge_yields ordered

/-- Three nodes of a pool of one slot are linked in an order that is not that of their spans, and one
of these has its bounds the wrong way round; a fourth node lives in the pool, with a link to the
first. The fourth enters before the second and leaves again, the second leaves, and the first takes
the second in. -/
theorem surgeries_edit_sequence_out_of_order :
    let first : Cell := ⟨⟨.slab, 0, 0⟩, ⟨50, 60⟩⟩
    let second : Cell := ⟨⟨.heap, 0, 0⟩, ⟨70, 65⟩⟩
    let third : Cell := ⟨⟨.heap, 1, 0⟩, ⟨0, 99⟩⟩
    let fourth : Cell := ⟨⟨.heap, 2, 0⟩, ⟨7, 8⟩⟩
    let calls : List Store.Call := [.allocate first.span, .allocate second.span,
      .allocate third.span, .allocate fourth.span,
      .write first.id fun node => { node with next := some second.id },
      .write second.id fun node => { node with prev := some first.id, next := some third.id },
      .write third.id fun node => { node with prev := some second.id },
      .write fourth.id fun node => { node with next := some first.id }]
    let chain : Chain := {
      participant := default
      store := Action.after Store.perform calls (.pool (.ofSlots 1))
      head := some first.id
      tail := some third.id
      length := 3 }
    chain.WellLinked [first, second, third]
      ∧ (∃ spliced, (spliceBefore fourth.id (some second.id)).Yields chain () spliced []
        ∧ spliced.WellLinked [first, fourth, second, third]
        ∧ ∃ restored events, (discard fourth.id).Yields spliced (some second.id) restored
            (.deleting default ⟨7, 8⟩ :: events)
          ∧ restored.head = some first.id ∧ Spares [fourth.id] chain restored)
      ∧ (∃ after events, (discard second.id).Yields chain (some third.id) after
            (.deleting default ⟨70, 65⟩ :: events)
          ∧ after.WellLinked [first, third] ∧ after.store.get? second.id = none)
      ∧ ∃ after events, (merge first.id second.id).Yields chain () after
            (.merging default ⟨50, 60⟩ ⟨70, 65⟩ ⟨50, 65⟩ :: events)
          ∧ after.WellLinked [⟨first.id, ⟨50, 65⟩⟩, third] ∧ after.store.get? second.id = none := by
  intro first second third fourth calls chain
  have linked : chain.WellLinked [first, second, third] := {
    links := ⟨by decide +kernel, by decide +kernel, by decide +kernel, trivial⟩
    head_eq := rfl
    tail_eq := rfl
    length_eq := rfl
    distinct := by decide
    reachable := ⟨.pool (.ofSlots 1), Or.inr ⟨1, rfl⟩, calls, rfl⟩ }
  have unlinked : chain.store.get? fourth.id = some ⟨fourth.span, none, some first.id⟩ := by
    decide +kernel
  obtain ⟨enters, leaves, merges⟩ := surgeries_edit_sequence linked
  obtain ⟨spliced, splices, entered, -, -, restored, events, discards, head_eq, -, -, spares⟩ :=
    enters fourth.id _ (some second.id) unlinked (by decide) (by decide)
  obtain ⟨after, more, drops, without, released⟩ := leaves [first] second [third] rfl
  obtain ⟨joined, others, joins, fewer, freed⟩ := merges [] first second [third] rfl (by decide)
  exact ⟨linked, ⟨spliced, splices, entered, restored, events, discards, head_eq, spares⟩,
    ⟨after, more, drops, without, released.gone⟩, joined, others, joins, fewer, freed.gone⟩

end Chain

end MergedSpans
