import MergedSpans.Proofs.Cells.Removal

/-! # What a removal leaves of each cell

How a cell lies to a span tells what is left of it when the span is taken away. Since cells are
separated, only one of them can reach out of the span on both sides, and the others then lie apart
from it.

* `Span.Pierces` — a span leaves something of another one on either side.
* `Cells.Leaves`, `Cells.leaves_remainder` — what is left of a cell.
* `Cells.mem_idsOf_erase`, `Cells.length_erase` — the ids that are left, and their number.
* `Cells.erase_of_pierced`, `Cells.pierced_cases` — where a cell is cut in two, nothing else changes.
-/

namespace MergedSpans

namespace Span

/-- A span pierces another one when that reaches out of it on both sides. -/
def Pierces (span whole : Span) : Prop := whole.low < span.low ∧ span.high < whole.high

instance (span whole : Span) : Decidable (span.Pierces whole) :=
  inferInstanceAs (Decidable (_ ∧ _))

/-- Spans that hold addresses and share none do not overlap. -/
theorem apart_of_disjoint {span other : Span} (formed : span.WellFormed)
    (otherFormed : other.WellFormed)
    (disjoint : ∀ address, ¬ (other.Holds address ∧ span.Holds address)) :
    other.high ≤ span.low ∨ span.high ≤ other.low := by
  by_contra overlap
  rw [not_or, UInt64.not_le, UInt64.not_le] at overlap
  obtain ⟨reaches, meets⟩ := overlap
  -- The one that starts later starts inside the other.
  by_cases late : span.low ≤ other.low
  · exact disjoint other.low ⟨otherFormed.holds_low, late, meets⟩
  · exact disjoint span.low
      ⟨⟨UInt64.le_of_lt (UInt64.not_le.mp late), reaches⟩, formed.holds_low⟩

end Span

namespace Cells

/-- What is left of a cell when a span is taken away, by how the cell lies to the span. The two ids
are for the two ends of a cell that is cut in two. -/
structure Leaves (span : Span) (first second : NodeId) (cell : Cell) (pieces : List Cell) : Prop
    where
  /-- A cell that shares no address with the span stays as it is. -/
  apart : (∀ address, ¬ (cell.span.Holds address ∧ span.Holds address)) → pieces = [cell]
  /-- A cell inside the span goes. -/
  covered : span.Covers cell.span → pieces = []
  /-- A cell that starts before the span and ends inside it keeps its id and its start. -/
  trimEnd : cell.span.low < span.low → span.low < cell.span.high → cell.span.high ≤ span.high →
    pieces = [⟨cell.id, ⟨cell.span.low, span.low⟩⟩]
  /-- A cell that starts inside the span and ends behind it keeps its id and its end. -/
  trimStart : span.low ≤ cell.span.low → cell.span.low < span.high → span.high < cell.span.high →
    pieces = [⟨cell.id, ⟨span.high, cell.span.high⟩⟩]
  /-- A cell that the span pierces gives way to two new ones. -/
  split : span.Pierces cell.span →
    pieces = [⟨first, ⟨cell.span.low, span.low⟩⟩, ⟨second, ⟨span.high, cell.span.high⟩⟩]

variable {span : Span} {first second id : NodeId} {whole cell : Cell}
  {cells before behind : List Cell}

/-! ## One cell -/

/-- A removal leaves of a cell what is to be left of it. -/
theorem leaves_remainder (formed : span.WellFormed) (cellFormed : cell.span.WellFormed) :
    Leaves span first second cell (remainder span first second cell) where
  apart := fun disjoint => remainder_of_apart (Span.apart_of_disjoint formed cellFormed disjoint)
  covered := fun covers => remainder_covered cellFormed covers.1 covers.2
  trimEnd := remainder_trimEnd
  trimStart := remainder_trimStart
  split := fun pierces => remainder_split formed pierces.1 pierces.2

/-- A cell goes, is cut in two, or leaves one piece under its own id. -/
theorem remainder_cases (formed : span.WellFormed) (cellFormed : cell.span.WellFormed) :
    span.Covers cell.span ∧ ¬ span.Pierces cell.span ∧ remainder span first second cell = []
      ∨ span.Pierces cell.span ∧ ¬ span.Covers cell.span
        ∧ idsOf (remainder span first second cell) = [first, second]
      ∨ ¬ span.Covers cell.span ∧ ¬ span.Pierces cell.span
        ∧ idsOf (remainder span first second cell) = [cell.id] := by
  by_cases pierces : span.Pierces cell.span
  · refine .inr (.inl ⟨pierces, fun covers => ?_, ?_⟩)
    · exact UInt64.not_le.mpr pierces.1 covers.1
    · rw [remainder_split formed pierces.1 pierces.2]
      rfl
  · by_cases covers : span.Covers cell.span
    · exact .inl ⟨covers, pierces, remainder_covered cellFormed covers.1 covers.2⟩
    · refine .inr (.inr ⟨covers, pierces, ?_⟩)
      unfold Span.Covers at covers
      unfold Span.Pierces at pierces
      unfold remainder
      -- In what is left one bound at most is cut off.
      split_ifs with apart starts ends ends
      · rfl
      · exact absurd ⟨starts, ends⟩ pierces
      · rfl
      · rfl
      · exact absurd ⟨UInt64.not_lt.mp starts, UInt64.not_lt.mp ends⟩ covers

/-! ## All cells -/

theorem splits_eq_zero_iff :
    splits span cells = 0 ↔ ∀ cell ∈ cells, ¬ span.Pierces cell.span := by
  rw [splits, List.countP_eq_zero]
  simp only [decide_eq_true_eq]
  rfl

/-- An id is left when it is that of a cell which neither goes nor is cut in two, or when it is new
and some cell is cut in two. -/
theorem mem_idsOf_erase (formed : span.WellFormed)
    (cellsFormed : ∀ cell ∈ cells, cell.span.WellFormed)
    (left : id ∈ idsOf (erase span first second cells)) :
    (∃ cell ∈ cells, cell.id = id ∧ ¬ span.Covers cell.span ∧ ¬ span.Pierces cell.span)
      ∨ 0 < splits span cells ∧ (id = first ∨ id = second) := by
  obtain ⟨piece, member, rfl⟩ := List.mem_map.mp left
  obtain ⟨cell, cellMember, inRemainder⟩ := List.mem_flatMap.mp member
  have among : piece.id ∈ idsOf (remainder span first second cell) :=
    List.mem_map_of_mem inRemainder
  rcases remainder_cases formed (cellsFormed cell cellMember) with
    ⟨-, -, gone⟩ | ⟨pierces, -, ids⟩ | ⟨notCovered, notPierced, ids⟩
  · rw [gone] at inRemainder
    cases inRemainder
  · rw [ids, List.mem_pair] at among
    refine .inr ⟨Nat.pos_of_ne_zero fun none => ?_, among⟩
    exact splits_eq_zero_iff.mp none cell cellMember pierces
  · rw [ids, List.mem_singleton] at among
    exact .inl ⟨cell, cellMember, among.symm, notCovered, notPierced⟩

/-- Every cell leaves one piece, but for those inside the span, which leave none, and one that is cut
in two. -/
theorem length_erase (formed : span.WellFormed)
    (cellsFormed : ∀ cell ∈ cells, cell.span.WellFormed) :
    (erase span first second cells).length + cells.countP (fun cell => span.Covers cell.span)
      = cells.length + splits span cells := by
  induction cells with
  | nil => rfl
  | cons cell rest induction =>
    rw [List.forall_mem_cons] at cellsFormed
    have counted := induction cellsFormed.2
    have split : splits span (cell :: rest)
        = splits span rest + if span.Pierces cell.span then 1 else 0 := by
      rw [splits, List.countP_cons]
      simp only [decide_eq_true_eq]
      rfl
    rw [erase_cons, List.length_append, List.countP_cons, List.length_cons, split]
    simp only [decide_eq_true_eq]
    rcases @remainder_cases span first second cell formed cellsFormed.1 with
      ⟨covers, notPierced, gone⟩ | ⟨pierces, notCovered, ids⟩ | ⟨notCovered, notPierced, ids⟩
    · rw [if_pos covers, if_neg notPierced, gone, List.length_nil]
      omega
    · have pieces : (remainder span first second cell).length = 2 := by
        simpa using congrArg List.length ids
      rw [if_neg notCovered, if_pos pierces, pieces]
      omega
    · have pieces : (remainder span first second cell).length = 1 := by
        simpa using congrArg List.length ids
      rw [if_neg notCovered, if_neg notPierced, pieces]
      omega

section Pierced

variable (separated : Separated (spansOf (before ++ whole :: behind))) (formed : span.WellFormed)
  (pierces : span.Pierces whole.span)

include separated pierces

/-- The cells before one that is pierced end before the span, and those behind it start behind the
span. -/
theorem outside_of_pierced :
    (∀ cell ∈ before, cell.span.high < span.low) ∧ ∀ cell ∈ behind, span.high < cell.span.low := by
  obtain ⟨-, rest, ends⟩ := separated_spansOf_append.mp separated
  obtain ⟨-, starts, -⟩ := separated_spansOf_cons.mp rest
  constructor
  · intro cell member
    exact UInt64.lt_trans (ends cell member whole List.mem_cons_self) pierces.1
  · intro cell member
    exact UInt64.lt_trans pierces.2 (starts cell member)

include formed

/-- Where a cell is cut in two, it is the only one. -/
theorem splits_of_pierced : splits span (before ++ whole :: behind) = 1 := by
  obtain ⟨early, late⟩ := outside_of_pierced separated pierces
  have noneEarly : splits span before = 0 := splits_of_high_le fun cell member =>
    UInt64.le_of_lt (UInt64.lt_trans (early cell member) formed)
  have noneLate : splits span behind = 0 := splits_of_le fun cell member =>
    UInt64.le_of_lt (UInt64.lt_trans formed (late cell member))
  rw [List.append_cons, splits_append, splits_append, noneEarly, noneLate,
    splits_singleton pierces.1 pierces.2]

/-- Where a cell is cut in two, its two ends take its place and all other cells stay as they are. -/
theorem erase_of_pierced (first second : NodeId) :
    erase span first second (before ++ whole :: behind)
      = before ++ ⟨first, ⟨whole.span.low, span.low⟩⟩
        :: ⟨second, ⟨span.high, whole.span.high⟩⟩ :: behind := by
  obtain ⟨early, late⟩ := outside_of_pierced separated pierces
  rw [erase_append, erase_cons, remainder_split formed pierces.1 pierces.2,
    erase_of_apart fun cell member => .inl (UInt64.le_of_lt (early cell member)),
    erase_of_apart fun cell member => .inr (UInt64.le_of_lt (late cell member))]
  rfl

end Pierced

/-- Either no cell is cut in two, or one is. -/
theorem pierced_cases (separated : Separated (spansOf cells)) (formed : span.WellFormed) :
    (∀ cell ∈ cells, ¬ span.Pierces cell.span) ∧ splits span cells = 0
      ∨ ∃ before whole behind, cells = before ++ whole :: behind ∧ span.Pierces whole.span
        ∧ splits span cells = 1 := by
  by_cases pierced : ∃ cell ∈ cells, span.Pierces cell.span
  · obtain ⟨whole, member, pierces⟩ := pierced
    obtain ⟨before, behind, rfl⟩ := List.append_of_mem member
    exact .inr ⟨before, whole, behind, rfl, pierces, splits_of_pierced separated formed pierces⟩
  · push Not at pierced
    exact .inl ⟨pierced, splits_eq_zero_iff.mpr pierced⟩

end Cells

end MergedSpans
