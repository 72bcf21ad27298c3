import MergedSpans.Proofs.Cells.Basic

/-! # Removal from cells

What it means to take the addresses of a span away from cells, without nodes and links: every cell
leaves behind what it has outside the span, whatever becomes of the others.

* `Cells.remainder` — what one cell leaves behind. A cell that is cut in two comes back under two
  new ids; every other one keeps its own.
* `Cells.erase` — what all cells leave behind.
* `Cells.splits` — the number of cells that are cut in two.
* `covered_erase`, `separated_erase` — separated cells stay so, and lose the addresses.
-/

namespace MergedSpans

namespace Cells

/-- What a cell has outside a span. The two ids are for a cell with something on either side. -/
def remainder (span : Span) (first second : NodeId) (cell : Cell) : List Cell :=
  if cell.span.high ≤ span.low ∨ span.high ≤ cell.span.low then [cell]
  else if cell.span.low < span.low then
    if span.high < cell.span.high then
      [⟨first, ⟨cell.span.low, span.low⟩⟩, ⟨second, ⟨span.high, cell.span.high⟩⟩]
    else [⟨cell.id, ⟨cell.span.low, span.low⟩⟩]
  else if span.high < cell.span.high then [⟨cell.id, ⟨span.high, cell.span.high⟩⟩]
  else []

/-- The addresses of a span are taken away from cells. -/
def erase (span : Span) (first second : NodeId) (cells : List Cell) : List Cell :=
  cells.flatMap (remainder span first second)

/-- The number of cells that reach out of a span on both sides. -/
def splits (span : Span) (cells : List Cell) : Nat :=
  cells.countP fun cell => decide (cell.span.low < span.low ∧ span.high < cell.span.high)

section Splits

variable {span : Span} {cell : Cell} {cells left right : List Cell}

theorem splits_append : splits span (left ++ right) = splits span left + splits span right :=
  List.countP_append

/-- How many cells are cut in two is a matter of their spans. -/
theorem splits_eq (same : spansOf left = spansOf right) : splits span left = splits span right := by
  have counted := congrArg (List.countP fun other : Span =>
    decide (other.low < span.low ∧ span.high < other.high)) same
  rwa [List.countP_map, List.countP_map] at counted

theorem splits_singleton (starts : cell.span.low < span.low) (ends : span.high < cell.span.high) :
    splits span [cell] = 1 := by
  simp [splits, starts, ends]

/-- Cells that start inside the span or behind it do not reach out of it in front. -/
theorem splits_of_le (late : ∀ cell ∈ cells, span.low ≤ cell.span.low) : splits span cells = 0 := by
  rw [splits, List.countP_eq_zero]
  intro cell member reaches
  rw [decide_eq_true_eq] at reaches
  exact UInt64.not_le.mpr reaches.1 (late cell member)

/-- Cells that end inside the span or before it do not reach out of it behind. -/
theorem splits_of_high_le (early : ∀ cell ∈ cells, cell.span.high ≤ span.high) :
    splits span cells = 0 := by
  rw [splits, List.countP_eq_zero]
  intro cell member reaches
  rw [decide_eq_true_eq] at reaches
  exact UInt64.not_le.mpr reaches.2 (early cell member)

/-- Of separated cells that start before the span, only the last one can reach out of it. -/
theorem splits_concat (separated : Separated (spansOf (left ++ [cell]))) (formed : span.WellFormed)
    (starts : cell.span.low < span.low) : splits span (left ++ [cell]) = splits span [cell] := by
  obtain ⟨-, -, before⟩ := separated_spansOf_append.mp separated
  rw [splits_append, splits_of_high_le, Nat.zero_add]
  intro other member
  have ends : other.span.high < span.low :=
    UInt64.lt_trans (before other member cell List.mem_cons_self) starts
  exact UInt64.le_of_lt (UInt64.lt_trans ends formed)

end Splits

section Remainder

variable {span : Span} {first second : NodeId} {cell : Cell} {cells left right : List Cell}

/-- A cell on one side of the span stays whole. -/
theorem remainder_of_apart (apart : cell.span.high ≤ span.low ∨ span.high ≤ cell.span.low) :
    remainder span first second cell = [cell] := if_pos apart

/-- A cell that shares an address with the span lies on neither side of it. -/
theorem not_apart (reaches : span.low < cell.span.high) (meets : cell.span.low < span.high) :
    ¬ (cell.span.high ≤ span.low ∨ span.high ≤ cell.span.low) := by
  rintro (before | behind)
  · exact UInt64.not_le.mpr reaches before
  · exact UInt64.not_le.mpr meets behind

/-- A cell that starts before the span and ends inside it loses its end. -/
theorem remainder_trimEnd (starts : cell.span.low < span.low) (reaches : span.low < cell.span.high)
    (ends : cell.span.high ≤ span.high) :
    remainder span first second cell = [⟨cell.id, ⟨cell.span.low, span.low⟩⟩] := by
  have meets : cell.span.low < span.high :=
    UInt64.lt_of_lt_of_le (UInt64.lt_trans starts reaches) ends
  rw [remainder, if_neg (not_apart reaches meets), if_pos starts, if_neg (UInt64.not_lt.mpr ends)]

/-- A cell that reaches out of the span on both sides is cut in two. -/
theorem remainder_split (formed : span.WellFormed) (starts : cell.span.low < span.low)
    (ends : span.high < cell.span.high) :
    remainder span first second cell
      = [⟨first, ⟨cell.span.low, span.low⟩⟩, ⟨second, ⟨span.high, cell.span.high⟩⟩] := by
  have reaches : span.low < cell.span.high := UInt64.lt_trans formed ends
  have meets : cell.span.low < span.high := UInt64.lt_trans starts formed
  rw [remainder, if_neg (not_apart reaches meets), if_pos starts, if_pos ends]

/-- A cell inside the span leaves nothing behind. -/
theorem remainder_covered (formed : cell.span.WellFormed) (starts : span.low ≤ cell.span.low)
    (ends : cell.span.high ≤ span.high) : remainder span first second cell = [] := by
  have reaches : span.low < cell.span.high := UInt64.lt_of_le_of_lt starts formed
  have meets : cell.span.low < span.high := UInt64.lt_of_lt_of_le formed ends
  rw [remainder, if_neg (not_apart reaches meets), if_neg (UInt64.not_lt.mpr starts),
    if_neg (UInt64.not_lt.mpr ends)]

/-- A cell that starts inside the span and ends behind it loses its start. -/
theorem remainder_trimStart (starts : span.low ≤ cell.span.low) (meets : cell.span.low < span.high)
    (ends : span.high < cell.span.high) :
    remainder span first second cell = [⟨cell.id, ⟨span.high, cell.span.high⟩⟩] := by
  have reaches : span.low < cell.span.high :=
    UInt64.lt_trans (UInt64.lt_of_le_of_lt starts meets) ends
  rw [remainder, if_neg (not_apart reaches meets), if_neg (UInt64.not_lt.mpr starts), if_pos ends]

/-- What a cell leaves behind covers its addresses outside the span. -/
theorem covered_remainder {address : UInt64} :
    Covered (spansOf (remainder span first second cell)) address
      ↔ cell.span.Holds address ∧ ¬ span.Holds address := by
  unfold remainder
  -- In each case the pieces are written out, and what is left is about the bounds of two spans.
  split_ifs with apart starts ends ends
  · show Covered [cell.span] address ↔ _
    rw [covered_singleton]
    unfold Span.Holds
    grind
  · show Covered [⟨cell.span.low, span.low⟩, ⟨span.high, cell.span.high⟩] address ↔ _
    rw [covered_cons, covered_singleton]
    unfold Span.Holds
    grind
  · show Covered [⟨cell.span.low, span.low⟩] address ↔ _
    rw [covered_singleton]
    unfold Span.Holds
    grind
  · show Covered [⟨span.high, cell.span.high⟩] address ↔ _
    rw [covered_singleton]
    unfold Span.Holds
    grind
  · refine iff_of_false not_covered_nil ?_
    unfold Span.Holds
    grind

/-- What a cell leaves behind lies between its bounds. -/
theorem bounds_remainder {piece : Span}
    (member : piece ∈ spansOf (remainder span first second cell)) :
    cell.span.low ≤ piece.low ∧ piece.high ≤ cell.span.high := by
  unfold remainder at member
  split_ifs at member with apart starts ends ends
  · obtain rfl := List.mem_singleton.mp member
    exact ⟨UInt64.le_refl _, UInt64.le_refl _⟩
  · rcases List.mem_pair.mp member with rfl | rfl
    · constructor <;> grind
    · constructor <;> grind
  · obtain rfl := List.mem_singleton.mp member
    constructor <;> grind
  · obtain rfl := List.mem_singleton.mp member
    constructor <;> grind
  · cases member

/-- What a cell leaves behind is separated. -/
theorem separated_remainder (formed : span.WellFormed) (cellFormed : cell.span.WellFormed) :
    Separated (spansOf (remainder span first second cell)) := by
  unfold Span.WellFormed at formed
  unfold remainder
  split
  · exact separated_singleton cellFormed
  · split
    · next starts =>
      split
      · next ends =>
        refine separated_cons.mpr ⟨starts, ?_, separated_singleton ends⟩
        intro later member
        obtain rfl := List.mem_singleton.mp member
        exact formed
      · exact separated_singleton starts
    · split
      · next ends => exact separated_singleton ends
      · exact separated_nil

/-- The two pieces of a cell that is cut lie apart, and stand where the cell stood. -/
theorem separated_pieces {before behind : List Span} {whole : Span}
    (separated : Separated (before ++ whole :: behind)) (formed : span.WellFormed)
    (starts : whole.low < span.low) (ends : span.high < whole.high) :
    Separated (before ++ ⟨whole.low, span.low⟩ :: ⟨span.high, whole.high⟩ :: behind) := by
  obtain ⟨beforeSeparated, restSeparated, passed⟩ := separated_append.mp separated
  obtain ⟨wholeFormed, later, behindSeparated⟩ := separated_cons.mp restSeparated
  have reaches : span.low < whole.high := UInt64.lt_trans formed ends
  have meets : whole.low < span.high := UInt64.lt_trans starts formed
  refine separated_append.mpr ⟨beforeSeparated, separated_cons.mpr ⟨starts, ?_, ?_⟩, ?_⟩
  · rw [List.forall_mem_cons]
    constructor
    · exact formed
    · intro other member
      exact UInt64.lt_trans reaches (later other member)
  · exact separated_cons.mpr ⟨ends, later, behindSeparated⟩
  · intro other member
    have below := passed other member
    rw [List.forall_mem_cons] at below
    rw [List.forall_mem_cons, List.forall_mem_cons]
    exact ⟨below.1, UInt64.lt_trans below.1 meets, below.2⟩

end Remainder

section Erase

variable {span : Span} {first second : NodeId} {cell : Cell} {cells left right : List Cell}

theorem erase_cons : erase span first second (cell :: cells)
    = remainder span first second cell ++ erase span first second cells := List.flatMap_cons

theorem erase_append : erase span first second (left ++ right)
    = erase span first second left ++ erase span first second right := List.flatMap_append

/-- Cells on one side of the span stay as they are. -/
theorem erase_of_apart
    (apart : ∀ cell ∈ cells, cell.span.high ≤ span.low ∨ span.high ≤ cell.span.low) :
    erase span first second cells = cells := by
  induction cells with
  | nil => rfl
  | cons cell rest induction =>
    rw [List.forall_mem_cons] at apart
    rw [erase_cons, remainder_of_apart apart.1, induction apart.2, List.singleton_append]

/-- Where only the last cell can reach into the span, only that one changes. -/
theorem erase_concat (apart : ∀ cell ∈ left, cell.span.high ≤ span.low) :
    erase span first second (left ++ [cell]) = left ++ remainder span first second cell := by
  rw [erase_append, erase_of_apart fun other member => Or.inl (apart other member), erase_cons]
  simp [erase]

/-- After a removal the addresses of the span are not covered any more, and all others are as they
were. -/
theorem covered_erase {address : UInt64} :
    Covered (spansOf (erase span first second cells)) address
      ↔ Covered (spansOf cells) address ∧ ¬ span.Holds address := by
  induction cells with
  | nil => simp [erase, Covered]
  | cons cell rest induction =>
    rw [erase_cons, spansOf_append, covered_append, covered_remainder, induction,
      spansOf_cons, covered_cons, or_and_right]

/-- Whatever is left behind lies between the bounds of a cell. -/
theorem bounds_erase {piece : Span} (member : piece ∈ spansOf (erase span first second cells)) :
    ∃ old ∈ spansOf cells, old.low ≤ piece.low ∧ piece.high ≤ old.high := by
  obtain ⟨left, leftMember, rfl⟩ := List.mem_map.mp member
  obtain ⟨cell, cellMember, inRemainder⟩ := List.mem_flatMap.mp leftMember
  exact ⟨cell.span, List.mem_map_of_mem cellMember,
    bounds_remainder (List.mem_map_of_mem inRemainder)⟩

/-- After a removal separated cells are separated still. -/
theorem separated_erase (formed : span.WellFormed) (separated : Separated (spansOf cells)) :
    Separated (spansOf (erase span first second cells)) := by
  induction cells with
  | nil => exact separated_nil
  | cons cell rest induction =>
    obtain ⟨cellFormed, behind, separatedRest⟩ := separated_cons.mp separated
    rw [erase_cons, spansOf_append]
    refine separated_append.mpr
      ⟨separated_remainder formed cellFormed, induction separatedRest, ?_⟩
    intro before beforeMember later laterMember
    -- What the cell leaves ends no later than the cell, and what the others leave starts no earlier
    -- than one of them.
    obtain ⟨-, ends⟩ := bounds_remainder beforeMember
    obtain ⟨old, oldMember, starts, -⟩ := bounds_erase laterMember
    exact UInt64.lt_of_le_of_lt ends (UInt64.lt_of_lt_of_le (behind old oldMember) starts)

end Erase

end Cells

end MergedSpans
