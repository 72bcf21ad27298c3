import MergedSpans.Proofs.Cells.Pieces
import MergedSpans.Proofs.Cells.Touched
import MergedSpans.Proofs.Chain.Calls
import MergedSpans.Proofs.Chain.Verdict

/-! # What becomes of the nodes

A change of a chain that links all nodes of its store, told by the nodes. Of an insertion: which of
them give way, which one is left in their place, and that nothing else is touched. Of a removal: what
each of them leaves in its place, and which ids are new or released.

* `Chain.cellsOf` — the cells that a walk has found.
* `owned_of_validate` — a chain without a defect that links all nodes of its store owns it.
* `Owned.released` — what becomes of the nodes that have given way.
* `insert_replaces_adjoining` — the nodes that a span adjoins give way to one node.
* `Owned.erased`, `Owned.erase_cases` — what a removal releases, allocates and counts.
* `erase_leaves_pieces` — every node leaves what it has outside a span.
-/

namespace MergedSpans

namespace Chain

open MergedSpans.Action

variable {chain : Chain} {cells : List Cell} {entries : List (NodeId × Node)} {span : Span}

/-- The ids that a walk has found, with the spans under them. -/
def cellsOf (entries : List (NodeId × Node)) : List Cell :=
  entries.map fun entry => ⟨entry.1, entry.2.span⟩

theorem idsOf_cellsOf (entries : List (NodeId × Node)) :
    idsOf (cellsOf entries) = entries.map Prod.fst := List.map_map

/-- A chain without a defect that links all nodes of its store owns the store, and its spans are
separated. -/
theorem owned_of_validate (reachable : chain.store.Reachable)
    (few : chain.allocations < Arithmetic.halfLimit) (clean : chain.validate = .ok none)
    (walked : chain.entries (chain.length + 1) = .ok entries)
    (all : ∀ id, (chain.store.get? id).isSome ↔ id ∈ entries.map Prod.fst) :
    chain.Owned (cellsOf entries) ∧ Separated (spansOf (cellsOf entries)) := by
  obtain ⟨cells, spells, separated⟩ := exists_spells_of_validate clean
  have sound : chain.store.Sound := reachable.sound few
  have linked : chain.Linked cells := ⟨spells, sound⟩
  -- The walk and the audit have found the same cells.
  obtain ⟨found, walkedSame, same⟩ := linked.entries_eq
  obtain rfl := Except.ok.inj (walked.symm.trans walkedSame)
  obtain rfl : cellsOf entries = cells := same
  rw [← idsOf_cellsOf] at all
  have counted := Store.length_eq_roster linked.distinct all
  refine ⟨{ linked with domain_eq := Set.ext all, live_eq := ?_ }, separated⟩
  rw [sound.live_eq, ← counted, List.length_map]

/-- An id that was never given out is not in the chain. -/
theorem Owned.not_mem_of_not_issued {id : NodeId} (owned : chain.Owned cells)
    (unissued : id ∉ chain.census.issued) : id ∉ idsOf cells := by
  intro linked
  have reached := owned.isSome_iff.mpr linked
  rw [Store.get?_eq_none_of_not_issued unissued] at reached
  cases reached

/-- Where cells have given way to one, the others of their ids and of the new one are released. -/
theorem Owned.released {after : Chain} {before touched behind : List Cell} {survivor : Cell}
    {new : NodeId} (owned : chain.Owned (before ++ touched ++ behind))
    (unissued : new ∉ chain.census.issued)
    (afterOwned : after.Owned (before ++ survivor :: behind)) :
    ∀ id ∈ new :: idsOf touched, id ≠ survivor.id → after.store.get? id = none := by
  have unlinked := owned.not_mem_of_not_issued unissued
  have distinct := owned.distinct
  rw [List.append_assoc] at unlinked distinct
  rw [not_mem_idsOf_append, not_mem_idsOf_append] at unlinked
  rw [nodup_idsOf_append, nodup_idsOf_append] at distinct
  obtain ⟨-, ⟨-, -, notBehind⟩, notBefore⟩ := distinct
  -- None of these ids occurs before the run or behind it.
  have elsewhere : ∀ id ∈ new :: idsOf touched, id ∉ idsOf before ∧ id ∉ idsOf behind := by
    refine List.forall_mem_cons.mpr ⟨⟨unlinked.1, unlinked.2.2⟩, fun id member => ⟨?_, ?_⟩⟩
    · intro inBefore
      exact (not_mem_idsOf_append.mp (notBefore id inBefore)).1 member
    · exact notBehind id member
  intro id member apart
  refine afterOwned.get?_eq_none ?_
  rw [not_mem_idsOf_append, idsOf_cons, List.mem_cons, not_or]
  exact ⟨(elsewhere id member).1, apart, (elsewhere id member).2⟩

/-- An insertion into a chain without a defect that links all nodes of its store. The nodes that the
span adjoins stand in one run. One node takes their place, with the smallest span that covers them
and the inserted one: that of them which starts before the span if there is one, and else the node
that the store has given out for the span. The others of them are released, and so is the new node
where it does not take the place; all nodes outside the run keep their ids, their spans and their
order. There is just one allocation. -/
theorem insert_replaces_adjoining (reachable : chain.store.Reachable)
    (few : chain.allocations + 2 < Arithmetic.halfLimit) (clean : chain.validate = .ok none)
    (walked : chain.entries (chain.length + 1) = .ok entries)
    (all : ∀ id, (chain.store.get? id).isSome ↔ id ∈ entries.map Prod.fst)
    (formed : span.WellFormed) :
    ∃ before touched behind survivor new after events,
      cellsOf entries = before ++ touched ++ behind
        ∧ Cells.Replaces new span before touched behind survivor
        ∧ ((Store.allocate span).run chain.store).answer = .ok new ∧ new ∉ chain.census.issued
        ∧ (insert span).Yields chain () after events
        ∧ after.Linked (before ++ survivor :: behind)
        ∧ after.length + touched.length = chain.length + 1
        ∧ after.allocations = chain.allocations + 1
        ∧ (∀ id, (after.store.get? id).isSome ↔ id ∈ idsOf (before ++ survivor :: behind))
        ∧ ∀ id ∈ new :: idsOf touched, id ≠ survivor.id → after.store.get? id = none := by
  have room : chain.allocations < Arithmetic.halfLimit := by omega
  obtain ⟨owned, separated⟩ := owned_of_validate reachable room clean walked all
  obtain ⟨new, after, events, yields, afterOwned, allocated, settles, -⟩ :=
    owned.insert_yields separated formed (by omega)
  have unissued : new ∉ chain.census.issued := Store.not_mem_issued owned.sound room allocated
  obtain ⟨before, touched, behind, survivor, parts, inserted, replaces⟩ :=
    Cells.insert_replaces new separated formed
  rw [inserted] at afterOwned
  rw [parts] at owned
  refine ⟨before, touched, behind, survivor, new, after, events, parts, replaces, allocated,
    unissued, yields, afterOwned.toLinked, ?_, settles.allocations_eq,
    fun id => afterOwned.isSome_iff, owned.released unissued afterOwned⟩
  rw [afterOwned.length_eq, owned.length_eq]
  simp only [List.length_append, List.length_cons]
  omega

/-- A span that bridges two gaps and touches a third span, in a pool of two slots. -/
theorem insert_replaces_adjoining_in_pool :
    let chain := Action.after perform [.insert ⟨0, 5⟩, .insert ⟨25, 30⟩, .insert ⟨10, 20⟩,
      .insert ⟨60, 70⟩, .insert ⟨40, 50⟩] (.empty default (.pool (.ofSlots 2)))
    let span : Span := ⟨20, 40⟩
    chain.store.Reachable ∧ chain.allocations + 2 < Arithmetic.halfLimit
      ∧ chain.validate = .ok none ∧ chain.length = 5
      ∧ ∃ (before touched behind : List Cell) (survivor : Cell) (after : Chain)
          (events : List Event),
        (insert span).Yields chain () after events ∧ after.Linked (before ++ survivor :: behind)
          ∧ touched.length = 3 ∧ ∀ cell ∈ touched, cell.span.Adjoins span := by
  intro chain span
  have fresh : (Store.pool (.ofSlots 2)).IsFresh := .inr ⟨2, rfl⟩
  have reachable : chain.store.Reachable :=
    reachable_after (moves_perform Store.closed_leadsTo) _ fresh.reachable
  have few : chain.allocations + 2 < Arithmetic.halfLimit := by decide +kernel
  have clean : chain.validate = .ok none := by decide +kernel
  have counted : chain.length = 5 := by decide +kernel
  obtain ⟨⟨⟨cells, ordered⟩, -⟩, -⟩ := (ordered_empty fresh default).runs
    [.insert ⟨0, 5⟩, .insert ⟨25, 30⟩, .insert ⟨10, 20⟩, .insert ⟨60, 70⟩, .insert ⟨40, 50⟩]
    (by decide) (by decide +kernel)
  obtain ⟨entries, walked, same⟩ := ordered.entries_eq
  have all : ∀ id, (chain.store.get? id).isSome ↔ id ∈ entries.map Prod.fst := by
    intro id
    rw [← idsOf_cellsOf, cellsOf, same]
    exact ordered.isSome_iff
  obtain ⟨before, touched, behind, survivor, new, after, events, -, replaces, -, -, yields, linked,
    lengths, -, -, -⟩ :=
    insert_replaces_adjoining reachable few clean walked all (by decide : span.WellFormed)
  have left : ((insert span).run chain).state.length = 3 := by decide +kernel
  rw [yields.state_eq] at left
  exact ⟨reachable, few, clean, counted, before, touched, behind, survivor, after, events, yields,
    linked, by omega, replaces.adjoins⟩

/-! ## Removals -/

/-- Where a span is taken away, the ids of the cells that go and of the one that is cut in two are
released. -/
theorem Owned.erased {after : Chain} {first second : NodeId} (owned : chain.Owned cells)
    (separated : Separated (spansOf cells)) (formed : span.WellFormed)
    (new : 0 < Cells.splits span cells →
      first ∉ chain.census.issued ∧ second ∉ chain.census.issued)
    (afterOwned : after.Owned (Cells.erase span first second cells)) :
    ∀ cell ∈ cells, span.Covers cell.span ∨ span.Pierces cell.span →
      after.store.get? cell.id = none := by
  intro cell member touched
  refine afterOwned.get?_eq_none fun left => ?_
  have linked : cell.id ∈ idsOf cells := List.mem_map_of_mem member
  rcases Cells.mem_idsOf_erase formed (fun _ => formed_of_mem separated) left with
    ⟨other, otherMember, same, notCovered, notPierced⟩ | ⟨cut, isNew⟩
  · -- Ids are distinct, so the cell would be one that stays.
    obtain rfl := List.inj_on_of_nodup_map owned.distinct otherMember member same
    exact touched.elim notCovered notPierced
  · obtain ⟨firstNew, secondNew⟩ := new cut
    rcases isNew with isFirst | isSecond
    · exact owned.not_mem_of_not_issued firstNew (isFirst ▸ linked)
    · exact owned.not_mem_of_not_issued secondNew (isSecond ▸ linked)

/-- A removal from a chain that owns its store cuts one cell in two or none. -/
theorem Owned.erase_cases (owned : chain.Owned cells) (separated : Separated (spansOf cells))
    (formed : span.WellFormed) (few : chain.allocations + 2 < Arithmetic.halfLimit) :
    ∃ first second after events, (erase span).Yields chain () after events
      ∧ after.Owned (Cells.erase span first second cells)
      ∧ (∀ cell ∈ cells, span.Covers cell.span ∨ span.Pierces cell.span →
        after.store.get? cell.id = none)
      ∧ ((∀ cell ∈ cells, ¬ span.Pierces cell.span) ∧ after.allocations = chain.allocations
          ∧ after.length + cells.countP (fun cell => span.Covers cell.span) = chain.length
        ∨ ∃ before whole behind, cells = before ++ whole :: behind ∧ span.Pierces whole.span
          ∧ Cells.erase span first second cells
            = before ++ ⟨first, ⟨whole.span.low, span.low⟩⟩
              :: ⟨second, ⟨span.high, whole.span.high⟩⟩ :: behind
          ∧ first ≠ second ∧ first ∉ chain.census.issued ∧ second ∉ chain.census.issued
          ∧ after.allocations = chain.allocations + 2 ∧ after.length = chain.length + 1) := by
  have cases := Cells.pierced_cases separated formed
  have atMostOne : Cells.splits span cells ≤ 1 := by
    rcases cases with ⟨-, none⟩ | ⟨_, _, _, -, -, one⟩ <;> omega
  obtain ⟨first, second, after, events, yields, afterOwned, new, settles, -⟩ :=
    owned.erase_yields separated formed (by omega)
  refine ⟨first, second, after, events, yields, afterOwned,
    owned.erased separated formed new afterOwned, ?_⟩
  have allocated := settles.allocations_eq
  rcases cases with ⟨noneCut, none⟩ | ⟨before, whole, behind, rfl, pierces, one⟩
  · have counted := @Cells.length_erase span first second _ formed fun _ => formed_of_mem separated
    rw [none] at allocated counted
    rw [← afterOwned.length_eq, ← owned.length_eq] at counted
    exact .inl ⟨noneCut, allocated, counted⟩
  · obtain ⟨firstNew, secondNew⟩ := new (by omega)
    have ends := Cells.erase_of_pierced separated formed pierces first second
    have distinct := afterOwned.distinct
    have counted := afterOwned.length_eq
    rw [ends] at distinct counted
    rw [one] at allocated
    refine .inr ⟨before, whole, behind, rfl, pierces, ends, ?_, firstNew, secondNew, allocated, ?_⟩
    · intro same
      have apart := (nodup_idsOf_middle.mp distinct).1
      exact (not_mem_idsOf_append.mp apart).2 (same ▸ List.mem_cons_self)
    · rw [counted, owned.length_eq]
      simp only [List.length_append, List.length_cons]
      omega

/-- A removal from a chain without a defect that links all nodes of its store. Every node leaves in
its place what `Cells.Leaves` says: one that shares no address with the span stays as it is, one
inside the span goes, and one that reaches out of it on one side keeps its id and that side. A node
that reaches out of it on both sides gives way to two new ones, for which there are two allocations;
all other nodes then stay as they are. Else there are no allocations. The ids of all nodes that do
not stay are released. -/
theorem erase_leaves_pieces (reachable : chain.store.Reachable)
    (few : chain.allocations + 2 < Arithmetic.halfLimit) (clean : chain.validate = .ok none)
    (walked : chain.entries (chain.length + 1) = .ok entries)
    (all : ∀ id, (chain.store.get? id).isSome ↔ id ∈ entries.map Prod.fst)
    (formed : span.WellFormed) :
    ∃ first second pieces after events,
      List.Forall₂ (Cells.Leaves span first second) (cellsOf entries) pieces
        ∧ (erase span).Yields chain () after events
        ∧ after.Linked pieces.flatten
        ∧ (∀ id, (after.store.get? id).isSome ↔ id ∈ idsOf pieces.flatten)
        ∧ (∀ cell ∈ cellsOf entries, span.Covers cell.span ∨ span.Pierces cell.span →
          after.store.get? cell.id = none)
        ∧ ((∀ cell ∈ cellsOf entries, ¬ span.Pierces cell.span)
            ∧ after.allocations = chain.allocations
            ∧ after.length + (cellsOf entries).countP (fun cell => span.Covers cell.span)
              = chain.length
          ∨ ∃ before whole behind, cellsOf entries = before ++ whole :: behind
            ∧ span.Pierces whole.span
            ∧ pieces.flatten = before ++ ⟨first, ⟨whole.span.low, span.low⟩⟩
              :: ⟨second, ⟨span.high, whole.span.high⟩⟩ :: behind
            ∧ first ≠ second ∧ first ∉ chain.census.issued ∧ second ∉ chain.census.issued
            ∧ after.allocations = chain.allocations + 2 ∧ after.length = chain.length + 1) := by
  have room : chain.allocations < Arithmetic.halfLimit := by omega
  obtain ⟨owned, separated⟩ := owned_of_validate reachable room clean walked all
  obtain ⟨first, second, after, events, yields, afterOwned, released, cases⟩ :=
    owned.erase_cases separated formed few
  have leaves : List.Forall₂ (Cells.Leaves span first second) (cellsOf entries)
      ((cellsOf entries).map (Cells.remainder span first second)) :=
    List.forall₂_map_right_iff.mpr (List.forall₂_same.mpr fun cell member =>
      Cells.leaves_remainder formed (formed_of_mem separated member))
  exact ⟨first, second, _, after, events, leaves, yields, afterOwned.toLinked,
    fun id => afterOwned.isSome_iff, released, cases⟩

/-- A span that swallows two spans and cuts off two others, and one inside a single span, in a pool
of two slots. -/
theorem erase_leaves_pieces_in_pool :
    let chain := Action.after perform [.insert ⟨40, 50⟩, .insert ⟨0, 10⟩, .insert ⟨20, 30⟩,
      .insert ⟨60, 70⟩] (.empty default (.pool (.ofSlots 2)))
    chain.store.Reachable ∧ chain.allocations + 2 < Arithmetic.halfLimit
      ∧ chain.validate = .ok none
      ∧ (∃ (after : Chain) (events : List Event), (erase ⟨5, 65⟩).Yields chain () after events
        ∧ after.spans = .ok [⟨0, 5⟩, ⟨65, 70⟩] ∧ after.allocations = chain.allocations
        ∧ after.length + 2 = chain.length)
      ∧ ∃ (after : Chain) (events : List Event), (erase ⟨22, 25⟩).Yields chain () after events
        ∧ after.spans = .ok [⟨0, 10⟩, ⟨20, 22⟩, ⟨25, 30⟩, ⟨40, 50⟩, ⟨60, 70⟩]
        ∧ after.allocations = chain.allocations + 2 ∧ after.length = chain.length + 1 := by
  intro chain
  have fresh : (Store.pool (.ofSlots 2)).IsFresh := .inr ⟨2, rfl⟩
  have reachable : chain.store.Reachable :=
    reachable_after (moves_perform Store.closed_leadsTo) _ fresh.reachable
  have few : chain.allocations + 2 < Arithmetic.halfLimit := by decide +kernel
  have clean : chain.validate = .ok none := by decide +kernel
  obtain ⟨⟨⟨cells, ordered⟩, -⟩, -⟩ := (ordered_empty fresh default).runs
    [.insert ⟨40, 50⟩, .insert ⟨0, 10⟩, .insert ⟨20, 30⟩, .insert ⟨60, 70⟩]
    (by decide) (by decide +kernel)
  obtain ⟨entries, walked, same⟩ := ordered.entries_eq
  have all : ∀ id, (chain.store.get? id).isSome ↔ id ∈ entries.map Prod.fst := by
    intro id
    rw [← idsOf_cellsOf, cellsOf, same]
    exact ordered.isSome_iff
  have spans : spansOf (cellsOf entries) = [⟨0, 10⟩, ⟨20, 30⟩, ⟨40, 50⟩, ⟨60, 70⟩] := by
    rw [cellsOf, same]
    exact Except.ok.inj (ordered.spans_eq.symm.trans (by decide +kernel))
  refine ⟨reachable, few, clean, ?_, ?_⟩
  · obtain ⟨_, _, _, after, events, -, yields, -, -, -, told⟩ :=
      erase_leaves_pieces reachable few clean walked all (by decide : Span.WellFormed ⟨5, 65⟩)
    have left : ((erase ⟨5, 65⟩).run chain).state.spans = .ok [⟨0, 5⟩, ⟨65, 70⟩] := by
      decide +kernel
    rw [yields.state_eq] at left
    have noneCut : ∀ span ∈ spansOf (cellsOf entries), ¬ Span.Pierces ⟨5, 65⟩ span := by
      rw [spans]
      decide
    have swallowed : (spansOf (cellsOf entries)).countP (fun span => Span.Covers ⟨5, 65⟩ span)
        = 2 := by
      rw [spans]
      decide
    rw [List.countP_map] at swallowed
    rcases told with ⟨-, allocated, counted⟩ | ⟨before, whole, behind, parts, pierces, -⟩
    · exact ⟨after, events, yields, left, allocated, swallowed ▸ counted⟩
    · exact absurd pierces (noneCut _ (by simp [parts]))
  · obtain ⟨_, _, _, after, events, -, yields, -, -, -, told⟩ :=
      erase_leaves_pieces reachable few clean walked all (by decide : Span.WellFormed ⟨22, 25⟩)
    have left : ((erase ⟨22, 25⟩).run chain).state.spans
        = .ok [⟨0, 10⟩, ⟨20, 22⟩, ⟨25, 30⟩, ⟨40, 50⟩, ⟨60, 70⟩] := by
      decide +kernel
    rw [yields.state_eq] at left
    have oneCut : ∃ span ∈ spansOf (cellsOf entries), Span.Pierces ⟨22, 25⟩ span := by
      rw [spans]
      decide
    obtain ⟨_, listed, cut⟩ := oneCut
    obtain ⟨cell, member, rfl⟩ := List.mem_map.mp listed
    rcases told with ⟨noneCut, -⟩ | ⟨_, _, _, -, -, -, -, -, -, allocated, counted⟩
    · exact absurd cut (noneCut cell member)
    · exact ⟨after, events, yields, left, allocated, counted⟩

end Chain

end MergedSpans
