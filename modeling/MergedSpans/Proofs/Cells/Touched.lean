import MergedSpans.Proofs.Cells.Insertion
import Mathlib.Order.Bounds.Defs

/-! # Which cells an insertion replaces

The cells that a span adjoins stand next to each other, and an insertion replaces just those with
one cell. That cell grows while it takes the others in; but since no cell touches the next one, it
never reaches a cell that the span itself does not adjoin.

* `Span.Adjoins` — two spans share an address, or one ends where the other starts.
* `Span.IsHull` — a span reaches from the start of the first of some spans to the end of the last.
* `Cells.absorb_takes` — a growing cell takes in what it reached at first.
* `Cells.Replaces`, `Cells.insert_replaces` — which cells give way to which one.
-/

namespace MergedSpans

open Chain (hull)

/-! ## Hulls of several spans -/

namespace Span

/-- Two spans adjoin when neither ends before the other one starts. -/
def Adjoins (first second : Span) : Prop := first.low ≤ second.high ∧ second.low ≤ first.high

instance (first second : Span) : Decidable (first.Adjoins second) :=
  inferInstanceAs (Decidable (_ ∧ _))

/-- The span starts with the first of the given spans to start, and ends with the last to end. -/
structure IsHull (whole : Span) (spans : List Span) : Prop where
  /-- Its low bound is the least one. -/
  low_isLeast : IsLeast { low | ∃ span ∈ spans, span.low = low } whole.low
  /-- Its high bound is the greatest one. -/
  high_isGreatest : IsGreatest { high | ∃ span ∈ spans, span.high = high } whole.high

variable {first second whole : Span} {spans others : List Span}

theorem not_adjoins_of_lt (before : first.high < second.low) : ¬ first.Adjoins second :=
  fun adjoins => UInt64.not_le.mpr before adjoins.2

theorem not_adjoins_of_gt (behind : second.high < first.low) : ¬ first.Adjoins second :=
  fun adjoins => UInt64.not_le.mpr behind adjoins.1

theorem isHull_singleton (span : Span) : span.IsHull [span] := by
  refine ⟨⟨⟨span, List.mem_singleton_self _, rfl⟩, ?_⟩, ⟨span, List.mem_singleton_self _, rfl⟩, ?_⟩
  all_goals
    rintro _ ⟨other, member, rfl⟩
    exact List.mem_singleton.mp member ▸ UInt64.le_refl _

/-- A hull is a matter of which spans there are, not of their order. -/
theorem IsHull.congr (isHull : whole.IsHull spans) (same : ∀ span, span ∈ others ↔ span ∈ spans) :
    whole.IsHull others := by
  constructor
  · simpa only [same] using isHull.low_isLeast
  · simpa only [same] using isHull.high_isGreatest

/-- The hull grows by a span that starts no earlier. -/
theorem IsHull.grow (isHull : whole.IsHull spans) (ordered : whole.low ≤ second.low) :
    (hull whole second).IsHull (second :: spans) := by
  obtain ⟨⟨⟨least, leastMember, leastEq⟩, below⟩, ⟨greatest, greatestMember, greatestEq⟩, above⟩ :=
    isHull
  refine ⟨⟨⟨least, List.mem_cons_of_mem _ leastMember, leastEq⟩, ?_⟩, ?_, ?_⟩
  · rintro _ ⟨span, member, rfl⟩
    rcases List.mem_cons.mp member with rfl | old
    · exact ordered
    · exact below ⟨span, old, rfl⟩
  · -- The end is that of the new span or that of the hull so far, whichever comes later.
    rw [hull_high]
    split
    · exact ⟨second, List.mem_cons_self, rfl⟩
    · exact ⟨greatest, List.mem_cons_of_mem _ greatestMember, greatestEq⟩
  · rintro _ ⟨span, member, rfl⟩
    refine le_hull_high_iff.mpr ?_
    rcases List.mem_cons.mp member with rfl | old
    · exact .inr (UInt64.le_refl _)
    · exact .inl (above ⟨span, old, rfl⟩)

end Span

namespace Cells

variable {id : NodeId} {cell survivor : Cell} {span whole : Span} {spans : List Span}
  {cells before touched behind : List Cell}

/-! ## Absorption -/

/-- A cell that grows takes in the cells which it reached before it grew. -/
theorem absorb_takes (id : NodeId) (isHull : whole.IsHull spans)
    (ordered : ∀ later ∈ cells, whole.low ≤ later.span.low) (formed : whole.WellFormed)
    (separated : Separated (spansOf cells)) :
    ∃ taken behind grown, cells = taken ++ behind
      ∧ absorb id whole cells = ⟨id, grown⟩ :: behind ∧ grown.IsHull (spans ++ spansOf taken)
      ∧ (∀ cell ∈ taken, cell.span.low ≤ whole.high)
      ∧ ∀ cell ∈ behind, whole.high < cell.span.low := by
  -- Induction on the cells behind, for every span that the cell has grown to by then.
  induction cells generalizing whole spans with
  | nil => exact ⟨[], [], whole, rfl, rfl, by simpa, by simp, by simp⟩
  | cons next rest induction =>
    obtain ⟨nextFormed, starts, separatedRest⟩ := separated_spansOf_cons.mp separated
    rw [List.forall_mem_cons] at ordered
    rw [absorb]
    by_cases touches : whole.Touches next.span
    · obtain ⟨taken, behind, grown, rfl, absorbed, grownHull, reached, left⟩ :=
        induction (isHull.grow ordered.1) ordered.2 (wellFormed_hull formed) separatedRest
      rw [if_pos touches]
      refine ⟨next :: taken, behind, grown, rfl, absorbed, grownHull.congr ?_,
        List.forall_mem_cons.mpr ⟨formed.touches_iff.mp touches, fun cell member => ?_⟩,
        fun cell member => (hull_high_lt_iff.mp (left cell member)).1⟩
      · intro span
        simp only [spansOf_cons, List.mem_append, List.mem_cons]
        tauto
      · -- The cell starts behind the end of the one just taken in, which did not help to reach it.
        have apart := starts cell (List.mem_append_left _ member)
        exact (le_hull_high_iff.mp (reached cell member)).resolve_right (UInt64.not_le.mpr apart)
    · rw [if_neg touches]
      rw [formed.touches_iff, UInt64.not_le] at touches
      refine ⟨[], next :: rest, whole, rfl, rfl, by simpa, by simp,
        List.forall_mem_cons.mpr ⟨touches, fun cell member => ?_⟩⟩
      exact UInt64.lt_trans touches (UInt64.lt_trans nextFormed (starts cell member))

/-! ## Insertion -/

/-- The cells that a span adjoins give way to one cell. Among them the one that starts before the
span survives; where there is none, the new one does. -/
structure Replaces (id : NodeId) (span : Span) (before touched behind : List Cell)
    (survivor : Cell) : Prop where
  /-- All the cells that give way adjoin the span. -/
  adjoins : ∀ cell ∈ touched, cell.span.Adjoins span
  /-- No other cells do. -/
  apart : ∀ cell ∈ before ++ behind, ¬ cell.span.Adjoins span
  /-- What is left in their place reaches as far as they and the span together. -/
  isHull : survivor.span.IsHull (span :: spansOf touched)
  /-- A cell that starts before the span keeps its id. -/
  keeps : ∀ cell ∈ touched, cell.span.low < span.low → survivor.id = cell.id
  /-- Where no cell starts before the span, the new id enters. -/
  enters : (∀ cell ∈ touched, span.low ≤ cell.span.low) → survivor.id = id

/-- A span in front of cells that start no earlier takes in those that it adjoins. -/
theorem absorb_replaces (id : NodeId) (late : ∀ cell ∈ cells, span.low ≤ cell.span.low)
    (separated : Separated (spansOf cells)) (formed : span.WellFormed) :
    ∃ touched behind survivor, cells = touched ++ behind
      ∧ absorb id span cells = survivor :: behind
      ∧ Replaces id span [] touched behind survivor := by
  obtain ⟨taken, behind, grown, rfl, absorbed, isHull, reached, left⟩ :=
    absorb_takes id span.isHull_singleton late formed separated
  refine ⟨taken, behind, ⟨id, grown⟩, rfl, absorbed, {
    adjoins := fun cell member => ⟨reached cell member, ?_⟩
    apart := fun cell member => Span.not_adjoins_of_gt (left cell member)
    isHull := isHull
    keeps := fun cell member early => ?_
    enters := fun _ => rfl }⟩
  · have cellFormed := formed_of_mem separated (List.mem_append_left _ member)
    exact UInt64.le_trans (late cell (List.mem_append_left _ member)) (UInt64.le_of_lt cellFormed)
  · exact absurd (late cell (List.mem_append_left _ member)) (UInt64.not_le.mpr early)

/-- A cell that starts before the span and touches it takes it in, and the other cells that the span
adjoins. -/
theorem absorb_hull_replaces (id : NodeId) (early : cell.span.low < span.low)
    (touches : cell.span.Touches span) (separated : Separated (spansOf (cell :: cells)))
    (formed : span.WellFormed) :
    ∃ touched behind survivor, cell :: cells = touched ++ behind
      ∧ absorb cell.id (hull cell.span span) cells = survivor :: behind
      ∧ Replaces id span [] touched behind survivor := by
  obtain ⟨cellFormed, starts, separatedRest⟩ := separated_spansOf_cons.mp separated
  have reaches : span.low ≤ cell.span.high := cellFormed.touches_iff.mp touches
  have ordered : ∀ later ∈ cells, (hull cell.span span).low ≤ later.span.low :=
    fun later member => UInt64.le_of_lt (UInt64.lt_trans cellFormed (starts later member))
  obtain ⟨taken, behind, grown, rfl, absorbed, isHull, reached, left⟩ :=
    absorb_takes cell.id (cell.span.isHull_singleton.grow (UInt64.le_of_lt early)) ordered
      (wellFormed_hull cellFormed) separatedRest
  -- Whatever comes behind the cell starts behind the start of the span.
  have later : ∀ other ∈ taken, span.low < other.span.low := fun other member =>
    UInt64.lt_of_le_of_lt reaches (starts other (List.mem_append_left _ member))
  refine ⟨cell :: taken, behind, ⟨cell.id, grown⟩, rfl, absorbed, {
    adjoins := List.forall_mem_cons.mpr
      ⟨⟨UInt64.le_of_lt (UInt64.lt_trans early formed), reaches⟩, fun other member => ⟨?_, ?_⟩⟩
    apart := fun other member => Span.not_adjoins_of_gt (hull_high_lt_iff.mp (left other member)).2
    isHull := isHull.congr fun other => ?_
    keeps := List.forall_mem_cons.mpr ⟨fun _ => rfl, fun other member tooEarly => ?_⟩
    enters := fun late => ?_ }⟩
  · -- The cell ends before the other one, so the span is what reached it.
    have apart := starts other (List.mem_append_left _ member)
    exact (le_hull_high_iff.mp (reached other member)).resolve_left (UInt64.not_le.mpr apart)
  · have otherFormed := formed_of_mem separatedRest (List.mem_append_left _ member)
    exact UInt64.le_of_lt (UInt64.lt_trans (later other member) otherFormed)
  · simp only [spansOf_cons, List.mem_append, List.mem_cons, List.not_mem_nil, or_false]
    tauto
  · exact absurd (UInt64.lt_trans (later other member) tooEarly) (UInt64.lt_irrefl _)
  · exact absurd (late cell List.mem_cons_self) (UInt64.not_le.mpr early)

/-- An insertion replaces the cells that the span adjoins, and no others. -/
theorem insert_replaces (id : NodeId) (separated : Separated (spansOf cells))
    (formed : span.WellFormed) :
    ∃ before touched behind survivor, cells = before ++ touched ++ behind
      ∧ insert id span cells = before ++ survivor :: behind
      ∧ Replaces id span before touched behind survivor := by
  induction cells with
  | nil =>
    obtain ⟨touched, behind, survivor, same, absorbed, replaces⟩ :=
      absorb_replaces id (by simp) separated formed
    exact ⟨[], touched, behind, survivor, same, absorbed, replaces⟩
  | cons cell rest induction =>
    obtain ⟨cellFormed, starts, separatedRest⟩ := separated_spansOf_cons.mp separated
    rw [insert]
    split
    · next late =>
      have ordered : ∀ later ∈ cell :: rest, span.low ≤ later.span.low := by
        refine List.forall_mem_cons.mpr ⟨late, fun later member => UInt64.le_trans late ?_⟩
        exact UInt64.le_of_lt (UInt64.lt_trans cellFormed (starts later member))
      obtain ⟨touched, behind, survivor, same, absorbed, replaces⟩ :=
        absorb_replaces id ordered separated formed
      exact ⟨[], touched, behind, survivor, same, absorbed, replaces⟩
    · next early =>
      rw [UInt64.not_le] at early
      split
      · next touches =>
        obtain ⟨touched, behind, survivor, same, absorbed, replaces⟩ :=
          absorb_hull_replaces id early touches separated formed
        exact ⟨[], touched, behind, survivor, same, absorbed, replaces⟩
      · -- The cell ends before the span, so the span enters somewhere behind it.
        next ends =>
        rw [cellFormed.touches_iff, UInt64.not_le] at ends
        obtain ⟨before, touched, behind, survivor, rfl, inserted, replaces⟩ :=
          induction separatedRest
        refine ⟨cell :: before, touched, behind, survivor, rfl, congrArg _ inserted,
          { replaces with apart := ?_ }⟩
        exact List.forall_mem_cons.mpr ⟨Span.not_adjoins_of_lt ends, replaces.apart⟩

end Cells

end MergedSpans
