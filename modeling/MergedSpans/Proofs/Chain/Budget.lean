import MergedSpans.Proofs.Chain.Removal

/-! # Room for allocations

The counters of a store have room for fewer than 2 ^ 32 allocations. A run that ends with fewer has
had room all along, because allocations are never taken back: whoever knows the end need not know
beforehand how many nodes a call is going to allocate.

* `Linked.room_of_insert` — an insertion that ends below the limit had room for its new node.
* `Owned.room_of_erase` — a removal that ends below the limit had room for the nodes of its split,
  if it had one to make.
-/

namespace MergedSpans

namespace Chain

open MergedSpans.Action

variable {chain : Chain} {cells left right : List Cell} {cell : Cell} {span : Span}

/-- The allocations of an action's end are at least those on the way. -/
theorem allocations_le_bind {α β : Type} (action : Action Chain α) {next : α → Action Chain β}
    (moves : ∀ value, (next value).Moves (Across (Ascends Store.allocations))) (chain : Chain) :
    (action.run chain).state.allocations ≤ ((action >>= next).run chain).state.allocations :=
  rel_run_bind action moves chain

/-- An insertion that ends below the limit had room for its new node. -/
theorem Linked.room_of_insert (linked : chain.Linked cells) (formed : span.WellFormed)
    (few : ((insert span).run chain).state.allocations < Arithmetic.halfLimit) :
    chain.allocations + 1 < Arithmetic.halfLimit := by
  have start : chain.allocations ≤ ((insert span).run chain).state.allocations :=
    moves_insert Store.closed_ascends span chain
  obtain ⟨id, placed, events, yields, census_eq⟩ := linked.allocate_yields (by omega) span
  have counted : placed.allocations = chain.allocations + 1 :=
    congrArg Census.allocations census_eq
  have required := yields_ofExcept (Span.require_eq_ok_iff.mpr formed) chain
  -- The allocation comes first, and what comes after it takes nothing back.
  have rest := moves_link Store.closed_ascends id span placed
  unfold insert at few
  rw [requireFormed, required.state_bind, yields.state_bind] at few
  rw [← counted]
  exact Nat.lt_of_le_of_lt rest few

/-- A cell that was cut in two below the limit left room for both pieces. -/
theorem Owned.room_of_split (owned : chain.Owned (left ++ cell :: right))
    (separated : Separated (spansOf (left ++ cell :: right))) (formed : span.WellFormed)
    (starts : cell.span.low < span.low) (ends : span.high < cell.span.high)
    (few : ((split cell.id cell.span span).run chain).state.allocations < Arithmetic.halfLimit) :
    chain.allocations + 2 < Arithmetic.halfLimit := by
  have start : chain.allocations
      ≤ ((split cell.id cell.span span).run chain).state.allocations :=
    moves_split Store.closed_ascends _ _ _ chain
  have keptLeft : Span.between cell.span.low span.low = .ok ⟨cell.span.low, span.low⟩ :=
    Span.between_eq_ok_iff.mpr ⟨starts, rfl⟩
  have keptRight : Span.between span.high cell.span.high = .ok ⟨span.high, cell.span.high⟩ :=
    Span.between_eq_ok_iff.mpr ⟨ends, rfl⟩
  obtain ⟨gone, goneEvents, goneYields, goneOwned, goneSettles, -⟩ :=
    owned.discard_yields (by omega)
  have goneCount := goneSettles.allocations_eq
  unfold split at few
  rw [(yields_ofExcept keptLeft chain).state_bind, (yields_ofExcept keptRight chain).state_bind,
    (yields_current chain).state_bind, (yields_emit _ chain).state_bind, goneYields.state_bind]
    at few
  -- The first piece had room, because what came after it takes nothing back.
  have firstFew := Nat.lt_of_le_of_lt
    (allocations_le_bind (insert ⟨cell.span.low, span.low⟩)
      (fun _ => moves_insert Store.closed_ascends ⟨span.high, cell.span.high⟩) gone) few
  have firstFormed : (⟨cell.span.low, span.low⟩ : Span).WellFormed := starts
  have firstRoom := goneOwned.room_of_insert firstFormed firstFew
  rw [spansOf_append, spansOf_cons] at separated
  have pieces := Cells.separated_pieces separated formed starts ends
  obtain ⟨first, half, halfEvents, halfYields, halfOwned, -, halfSettles, -⟩ :=
    goneOwned.insert_yields_of_apart
      (pieces.sublist (((List.sublist_cons_self _ _).cons_cons _).append_left _)) firstRoom
  have halfCount := halfSettles.allocations_eq
  -- The second piece had room besides.
  rw [halfYields.state_bind] at few
  have secondFormed : (⟨span.high, cell.span.high⟩ : Span).WellFormed := ends
  have secondRoom := halfOwned.room_of_insert secondFormed few
  omega

/-- A removal that ends below the limit had room for the nodes of its split, if it had one to
make. -/
theorem Owned.room_of_erase (owned : chain.Owned cells) (separated : Separated (spansOf cells))
    (formed : span.WellFormed)
    (few : ((erase span).run chain).state.allocations < Arithmetic.halfLimit) :
    chain.allocations + 2 * Cells.splits span cells < Arithmetic.halfLimit := by
  have start : chain.allocations ≤ ((erase span).run chain).state.allocations :=
    moves_erase Store.closed_ascends span chain
  obtain ⟨left, right, rfl, dropped, early, late⟩ := Cells.exists_seam separated span.low
  rw [Cells.splits_append, Cells.splits_of_le late, Nat.add_zero]
  rcases List.eq_nil_or_concat' left with rfl | ⟨init, last, rfl⟩
  · exact Nat.lt_of_le_of_lt start few
  · -- Of all cells only the last one before the seam can need room, and only for a split.
    have starts : last.span.low < span.low := early last (by simp)
    rw [Cells.splits_concat (separated_spansOf_append.mp separated).1 formed starts]
    by_cases ends : span.high < last.span.high
    · -- The last cell is cut in two, and what comes after it takes nothing back.
      rw [Cells.splits_singleton starts ends]
      rw [owned.toSpells.erase_run owned.fits (by simp) formed dropped, lastId_append, lastId_cons, lastId_nil] at few
      have cutFew := Nat.lt_of_le_of_lt
        (allocations_le_bind (cutBefore span (some last.id)) (fun _ =>
          Moves.bind moves_current fun _ =>
            Moves.bind (moves_cutFrom Store.closed_ascends span _ _) fun _ => moves_read _) chain)
        few
      rw [List.append_assoc, List.singleton_append] at owned separated
      have meets : last.span.Meets span := Or.inr (UInt64.lt_trans formed ends)
      rw [owned.toSpells.cutBefore_run (UInt64.le_of_lt starts), if_pos meets,
        if_neg (UInt64.not_le.mpr ends)] at cutFew
      exact owned.room_of_split separated formed starts ends cutFew
    · rw [Cells.splits_of_high_le (List.forall_mem_singleton.mpr (UInt64.not_lt.mp ends))]
      exact Nat.lt_of_le_of_lt start few

end Chain

end MergedSpans
