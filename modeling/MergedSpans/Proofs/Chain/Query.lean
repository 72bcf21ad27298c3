import MergedSpans.Proofs.Cells.Insertion
import MergedSpans.Proofs.Chain.Surgery
import MergedSpans.Proofs.Chain.Verdict

/-! # What a query answers

A query looks at two spans only: the first one that starts no earlier than the span asked for, and
the one before it. Where spans are separated no other one could share an address with it unless one
of these does.

* `Shares` — a span shares an address with some others.
* `shares_left`, `shares_right` — one look on either side is enough.
* `anyM_intersects` — a span shares an address with some others if it intersects one of them.
* `Spells.overlaps_eq`, `Owned.overlaps_eq` — the answer of the query.
* `overlaps_agrees_with_full_scan` — it is the answer of a look at all spans.
-/

namespace MergedSpans

/-- The span shares an address with one of the others. -/
def Shares (span : Span) (others : List Span) : Prop :=
  ∃ address, span.Holds address ∧ Covered others address

section Shares

variable {span : Span} {left right init rest cells : List Cell} {last next : Cell}

/-- Nothing is shared with no spans. -/
theorem not_shares_nil : ¬ Shares span [] := by
  rintro ⟨address, -, covered⟩
  exact not_covered_nil covered

/-- What a span shares with two lists it shares with one of them. -/
theorem shares_append :
    Shares span (spansOf (left ++ right))
      ↔ Shares span (spansOf left) ∨ Shares span (spansOf right) := by
  simp only [Shares, spansOf_append, covered_append, and_or_left, exists_or]

/-- Of the cells that start before the span, one shares an address with it only if the last does. -/
theorem shares_left (separated : Separated (spansOf (init ++ [last]))) (formed : span.WellFormed)
    (early : ∀ cell ∈ init ++ [last], cell.span.low < span.low) :
    Shares span (spansOf (init ++ [last])) ↔ last.span.Meets span := by
  have starts : last.span.low < span.low := early last (by simp)
  have lastFormed : last.span.WellFormed := formed_of_mem separated (by simp)
  rw [lastFormed.meets_iff]
  constructor
  · rintro ⟨address, ⟨reached, -⟩, covered⟩
    rw [spansOf_append] at separated covered
    obtain ⟨-, -, before⟩ := separated_append.mp separated
    rcases covered_append.mp covered with ⟨other, member, held⟩ | inLast
    · -- A cell before the last one ends before that starts, and so before the span.
      have ends : other.high < last.span.low := before other member last.span List.mem_cons_self
      have beyond : other.high < address :=
        UInt64.lt_of_lt_of_le (UInt64.lt_trans ends starts) reached
      exact absurd (UInt64.lt_trans beyond held.2) (UInt64.lt_irrefl _)
    · exact UInt64.lt_of_le_of_lt reached (covered_singleton.mp inLast).2
  · intro inside
    rw [spansOf_append]
    refine ⟨span.low, formed.holds_low, covered_append.mpr (Or.inr ?_)⟩
    exact covered_singleton.mpr ⟨UInt64.le_of_lt starts, inside⟩

/-- Of the cells that start no earlier, one shares an address with the span only if the first
does. -/
theorem shares_right (separated : Separated (spansOf (next :: rest))) (formed : span.WellFormed)
    (late : ∀ cell ∈ next :: rest, span.low ≤ cell.span.low) :
    Shares span (spansOf (next :: rest)) ↔ span.Meets next.span := by
  have starts : span.low ≤ next.span.low := late next List.mem_cons_self
  have nextFormed : next.span.WellFormed := formed_of_mem separated List.mem_cons_self
  rw [formed.meets_iff]
  constructor
  · rintro ⟨address, ⟨-, inside⟩, covered⟩
    have reached : next.span.low ≤ address := separated.low_le covered
    exact UInt64.lt_of_le_of_lt reached inside
  · intro inside
    exact ⟨next.span.low, ⟨starts, inside⟩, covered_cons.mpr (Or.inl nextFormed.holds_low)⟩

end Shares

/-! ## Intersecting spans -/

/-- One of the spans intersects a further one if that shares an address with them. -/
theorem anyM_intersects {span : Span} {spans : List Span} (formed : span.WellFormed)
    (allFormed : ∀ other ∈ spans, other.WellFormed) :
    ∃ hit, spans.anyM (Span.intersects · span) = .ok hit
      ∧ (hit = true ↔ ∃ other ∈ spans, other.intersects span = .ok true)
      ∧ (hit = true ↔ Shares span spans) := by
  induction spans with
  | nil => exact ⟨false, rfl, by simp, by simp [not_shares_nil]⟩
  | cons first rest induction =>
    rw [List.forall_mem_cons] at allFormed
    obtain ⟨hit, asked, iff⟩ :=
      (allFormed.1.intersects_decides formed).congr (exists_congr fun _ => and_comm)
    obtain ⟨found, scanned, exists_iff, foundIff⟩ := induction allFormed.2
    have shared : Shares span (first :: rest) ↔ hit = true ∨ found = true := by
      simp only [Shares, covered_cons, and_or_left, exists_or, iff, foundIff]
    rw [List.anyM_cons, asked, shared, List.exists_mem_cons_iff, asked, ← exists_iff]
    cases hit with
    | true => exact ⟨true, rfl, by simp, by simp⟩
    | false => exact ⟨found, scanned, by simp, by simp⟩

namespace Chain

variable {chain : Chain} {cells : List Cell} {span : Span}

/-! ## The query -/

/-- Where no node starts at the span or later, the last node is asked. -/
theorem Spells.overlaps_eq_of_left {left : List Cell} (spells : chain.Spells left)
    (separated : Separated (spansOf left)) (formed : span.WellFormed)
    (early : ∀ cell ∈ left, cell.span.low < span.low)
    (found : chain.lowerBound span.low = .ok none) :
    Decides (chain.overlaps span) (Shares span (spansOf left)) := by
  have required := Span.require_eq_ok_iff.mpr formed
  have tail := spells.tail_eq
  rcases List.eq_nil_or_concat' left with rfl | ⟨init, last, rfl⟩
  · refine ⟨false, ?_, by simp [not_shares_nil]⟩
    simp [overlaps, required, tail, bind, Except.bind, pure, Except.pure]
  · rw [lastId_append, lastId_cons, lastId_nil] at tail
    have look := spanAt_of_links spells.links
    have asked : last.span.overlaps span = .ok (decide (last.span.Meets span)) :=
      Span.overlaps_of_le (UInt64.le_of_lt (early last (by simp)))
    refine ⟨decide (last.span.Meets span), ?_, ?_⟩
    · simp [overlaps, required, tail, found, look, asked, bind, Except.bind]
    · rw [decide_eq_true_iff, shares_left separated formed early]

/-- Where a node starts at the span or later, the first of them is asked, and then the one before
it. -/
theorem Spells.overlaps_eq_of_right {left rest : List Cell} {next : Cell}
    (spells : chain.Spells (left ++ next :: rest))
    (separated : Separated (spansOf (left ++ next :: rest))) (formed : span.WellFormed)
    (early : ∀ cell ∈ left, cell.span.low < span.low)
    (late : ∀ cell ∈ next :: rest, span.low ≤ cell.span.low)
    (found : chain.lowerBound span.low = .ok (some next.id)) :
    Decides (chain.overlaps span) (Shares span (spansOf (left ++ next :: rest))) := by
  have required := Span.require_eq_ok_iff.mpr formed
  obtain ⟨leftSeparated, rightSeparated, -⟩ := separated_spansOf_append.mp separated
  obtain ⟨final, tail⟩ : ∃ final : Cell, chain.tail = some final.id := by
    have occupied : left ++ next :: rest ≠ [] := by simp
    obtain ⟨final, -, last⟩ := @lastId_eq_some none _ occupied
    exact ⟨final, spells.tail_eq.trans last⟩
  have look := spanAt_of_links spells.links
  have node := node_of_links spells.links
  have asked : span.overlaps next.span = .ok (decide (span.Meets next.span)) :=
    Span.overlaps_of_le (late next List.mem_cons_self)
  rw [shares_append, shares_right rightSeparated formed late]
  -- The one before it is asked only when the first has nothing in common with the span.
  by_cases meets : span.Meets next.span
  · refine ⟨true, ?_, by simp [meets]⟩
    simp [overlaps, required, tail, found, look, asked, meets, bind, Except.bind, pure, Except.pure]
  · rcases List.eq_nil_or_concat' left with rfl | ⟨init, last, rfl⟩
    · refine ⟨false, ?_, by simp [meets, not_shares_nil]⟩
      simp [overlaps, required, tail, found, look, asked, meets, node, bind, Except.bind, pure,
        Except.pure]
    · have lastLinks := spells.links
      rw [List.append_assoc] at lastLinks
      have lastLook := spanAt_of_links lastLinks
      have lastAsked : last.span.overlaps span = .ok (decide (last.span.Meets span)) :=
        Span.overlaps_of_le (UInt64.le_of_lt (early last (by simp)))
      rw [lastId_append, lastId_cons, lastId_nil] at node
      refine ⟨decide (last.span.Meets span), ?_, ?_⟩
      · simp [overlaps, required, tail, found, look, asked, meets, node, lastLook, lastAsked, bind,
          Except.bind]
      · rw [decide_eq_true_iff, shares_left leftSeparated formed early]
        simp [meets]

/-- The query answers whether the span shares an address with one of the cells. -/
theorem Spells.overlaps_eq (spells : chain.Spells cells) (fits : cells.length ≤ chain.reach)
    (separated : Separated (spansOf cells)) (formed : span.WellFormed) :
    Decides (chain.overlaps span) (Shares span (spansOf cells)) := by
  have found := spells.lowerBound_eq fits span.low
  obtain ⟨left, right, rfl, dropped, early, late⟩ := Cells.exists_seam separated span.low
  rw [dropped] at found
  cases right with
  | nil =>
    rw [List.append_nil] at spells separated ⊢
    exact spells.overlaps_eq_of_left separated formed early found
  | cons next rest => exact spells.overlaps_eq_of_right separated formed early late found

theorem Owned.overlaps_eq (owned : chain.Owned cells) (separated : Separated (spansOf cells))
    (formed : span.WellFormed) :
    Decides (chain.overlaps span) (Shares span (spansOf cells)) :=
  owned.toSpells.overlaps_eq owned.fits separated formed

/-! ## Main result -/

/-- On a chain without a defect a query, which looks at two spans at most, tells what a look at all
spans of the chain would tell: whether one of them intersects the span that is asked for, which is
whether some address lies in both. -/
theorem overlaps_agrees_with_full_scan (reachable : chain.store.Reachable)
    (clean : chain.validate = .ok none) (formed : span.WellFormed) :
    ∃ hit spans, chain.overlaps span = .ok hit ∧ chain.spans = .ok spans
      ∧ spans.anyM (Span.intersects · span) = .ok hit
      ∧ (hit = true ↔ ∃ tracked ∈ spans, tracked.intersects span = .ok true)
      ∧ (hit = true ↔ ∃ address, span.Holds address ∧ Covered spans address) := by
  obtain ⟨cells, spells, separated⟩ := exists_spells_of_validate clean
  have fits := spells.fits reachable.tidy
  obtain ⟨hit, answered, iff⟩ := spells.overlaps_eq fits separated formed
  obtain ⟨found, scanned, exists_iff, foundIff⟩ := anyM_intersects formed separated.formed
  -- Both answers are whether the span shares an address with the spans of the chain.
  obtain rfl : found = hit := Bool.eq_iff_iff.mpr (foundIff.trans iff.symm)
  exact ⟨found, spansOf cells, answered, spells.spans_eq fits, scanned, exists_iff, iff⟩

/-- A query that just fits between two spans, and one that reaches back into the span before its
place, on a chain in a pool of two slots. -/
theorem overlaps_agrees_with_full_scan_in_pool :
    let chain := Action.after insert [⟨40, 50⟩, ⟨0, 10⟩, ⟨20, 30⟩]
      (.empty default (.pool (.ofSlots 2)))
    chain.store.Reachable ∧ chain.validate = .ok none
      ∧ (∃ spans, chain.spans = .ok spans ∧ spans.anyM (Span.intersects · ⟨10, 20⟩) = .ok false
        ∧ ¬ ∃ address, Span.Holds ⟨10, 20⟩ address ∧ Covered spans address)
      ∧ ∃ spans, chain.spans = .ok spans ∧ spans.anyM (Span.intersects · ⟨25, 40⟩) = .ok true
        ∧ ∃ address, Span.Holds ⟨25, 40⟩ address ∧ Covered spans address := by
  intro chain
  have fresh : (Store.pool (.ofSlots 2)).IsFresh := .inr ⟨2, rfl⟩
  have reachable : chain.store.Reachable :=
    reachable_after (moves_insert Store.closed_leadsTo) _ fresh.reachable
  have clean : chain.validate = .ok none := by decide +kernel
  have between : chain.overlaps ⟨10, 20⟩ = .ok false := by decide +kernel
  have back : chain.overlaps ⟨25, 40⟩ = .ok true := by decide +kernel
  obtain ⟨_, spans, answered, told, scanned, -, shared⟩ :=
    overlaps_agrees_with_full_scan reachable clean (by decide : Span.WellFormed ⟨10, 20⟩)
  obtain rfl := Except.ok.inj (answered.symm.trans between)
  obtain ⟨_, others, answered, otherTold, otherScanned, -, otherShared⟩ :=
    overlaps_agrees_with_full_scan reachable clean (by decide : Span.WellFormed ⟨25, 40⟩)
  obtain rfl := Except.ok.inj (answered.symm.trans back)
  exact ⟨reachable, clean, ⟨spans, told, scanned, fun found => absurd (shared.mpr found) (by simp)⟩,
    others, otherTold, otherScanned, otherShared.mp rfl⟩

end Chain

end MergedSpans
