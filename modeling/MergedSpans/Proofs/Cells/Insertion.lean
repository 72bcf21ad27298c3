import MergedSpans.Proofs.Cells.Basic
import MergedSpans.Proofs.Span.Order

/-! # Insertion into cells

What it means to insert a span into cells, without nodes and links: the new cell goes where it
belongs, and every cell that it touches becomes one with it.

* `Cells.absorb` — a cell takes in the cells behind it for as long as they touch.
* `Cells.insert` — a span enters under a new id; a cell that starts before it and touches it takes
  it in and keeps its own id.
* `exists_seam` — where a span belongs.
* `covered_insert`, `separated_insert` — separated cells stay so, and cover the new addresses.
* `LedBy.insert` — the first cell stays the first one as long as nothing starts in front of it.
* `Gains` — what cells have gained by insertions one after another.
-/

namespace MergedSpans

open Chain (hull)

namespace Cells

/-- A cell takes in the ones behind it for as long as they touch. -/
def absorb (id : NodeId) (span : Span) : List Cell → List Cell
  | [] => [⟨id, span⟩]
  | next :: rest =>
    if span.Touches next.span then absorb id (hull span next.span) rest
    else ⟨id, span⟩ :: next :: rest

/-- A span enters under an id. -/
def insert (id : NodeId) (span : Span) : List Cell → List Cell
  | [] => [⟨id, span⟩]
  | cell :: rest =>
    if span.low ≤ cell.span.low then absorb id span (cell :: rest)
    else if cell.span.Touches span then absorb cell.id (hull cell.span span) rest
    else cell :: insert id span rest

/-! ## Seams -/

/-- Separated cells fall into those that start before an address and those that do not. -/
theorem exists_seam {cells : List Cell} (separated : Separated (spansOf cells)) (low : UInt64) :
    ∃ left right, cells = left ++ right ∧ cells.dropWhile (·.span.low < low) = right
      ∧ (∀ cell ∈ left, cell.span.low < low) ∧ ∀ cell ∈ right, low ≤ cell.span.low := by
  induction cells with
  | nil => exact ⟨[], [], rfl, rfl, by simp, by simp⟩
  | cons cell rest induction =>
    obtain ⟨formed, behind, separatedRest⟩ := separated_spansOf_cons.mp separated
    by_cases early : cell.span.low < low
    · obtain ⟨left, right, rfl, dropped, before, after⟩ := induction separatedRest
      refine ⟨cell :: left, right, rfl, ?_, List.forall_mem_cons.mpr ⟨early, before⟩, after⟩
      rwa [List.dropWhile_cons, if_pos (decide_eq_true early)]
    · refine ⟨[], cell :: rest, rfl, ?_, by simp, List.forall_mem_cons.mpr ⟨?_, ?_⟩⟩
      · rw [List.dropWhile_cons, if_neg (by simpa using early)]
      · exact UInt64.not_lt.mp early
      · intro later member
        have later := UInt64.lt_trans formed (behind later member)
        exact UInt64.le_trans (UInt64.not_lt.mp early) (UInt64.le_of_lt later)

/-! ## Absorption -/

section Absorb

variable {id : NodeId} {span : Span} {cells : List Cell}

/-- A cell that takes in others covers what they covered. -/
theorem covered_absorb (ordered : ∀ later ∈ cells, span.low ≤ later.span.low)
    {address : UInt64} :
    Covered (spansOf (absorb id span cells)) address
      ↔ span.Holds address ∨ Covered (spansOf cells) address := by
  -- Induction on the cells behind, for every span in front of them: what is taken in makes the span
  -- grow, and it starts where it did.
  induction cells generalizing span with
  | nil => simp [absorb, Covered]
  | cons next rest induction =>
    rw [List.forall_mem_cons] at ordered
    rw [absorb]
    split
    · next touches =>
      have grown : ∀ later ∈ rest, (hull span next.span).low ≤ later.span.low := ordered.2
      rw [induction grown, holds_hull ordered.1 touches, spansOf_cons, covered_cons, or_assoc]
    · rw [spansOf_cons, covered_cons]

/-- A cell that takes in others ends up apart from those that are left. -/
theorem separated_absorb (formed : span.WellFormed) (separated : Separated (spansOf cells)) :
    Separated (spansOf (absorb id span cells)) := by
  induction cells generalizing span with
  | nil => exact separated_singleton formed
  | cons next rest induction =>
    obtain ⟨nextFormed, behind, separatedRest⟩ := separated_spansOf_cons.mp separated
    rw [absorb]
    split
    · exact induction (wellFormed_hull formed) separatedRest
    · next apart =>
      rw [formed.touches_iff, UInt64.not_le] at apart
      -- The cell ends before the next one, and so before all that come after that one.
      refine separated_spansOf_cons.mpr ⟨formed, List.forall_mem_cons.mpr ⟨apart, ?_⟩, separated⟩
      intro later member
      exact UInt64.lt_trans apart (UInt64.lt_trans nextFormed (behind later member))

/-- A cell takes in nothing from cells that start behind its end. -/
theorem absorb_of_apart (formed : span.WellFormed)
    (apart : ∀ later ∈ cells, span.high < later.span.low) :
    absorb id span cells = ⟨id, span⟩ :: cells := by
  cases cells with
  | nil => rfl
  | cons next rest =>
    have ends := apart next List.mem_cons_self
    refine if_neg ?_
    rwa [formed.touches_iff, UInt64.not_le]

end Absorb

/-! ## Insertion -/

section Insert

variable {id : NodeId} {span : Span} {left right cells : List Cell}

/-- Cells that end before the span are passed over. -/
theorem insert_append
    (passed : ∀ cell ∈ left, cell.span.low < span.low ∧ ¬ cell.span.Touches span) :
    insert id span (left ++ right) = left ++ insert id span right := by
  induction left with
  | nil => rfl
  | cons cell rest induction =>
    rw [List.forall_mem_cons] at passed
    rw [List.cons_append, insert, if_neg (UInt64.not_le.mpr passed.1.1), if_neg passed.1.2,
      induction passed.2, List.cons_append]

/-- In front of cells that start no earlier, the new cell takes in what it touches. -/
theorem insert_of_le (late : ∀ cell ∈ right, span.low ≤ cell.span.low) :
    insert id span right = absorb id span right := by
  cases right with
  | nil => rfl
  | cons cell rest => exact if_pos (late cell List.mem_cons_self)

/-- The cell directly before the new one takes it in when the two touch. -/
theorem insert_of_touches {cell : Cell} (early : cell.span.low < span.low)
    (touches : cell.span.Touches span) :
    insert id span (cell :: right) = absorb cell.id (hull cell.span span) right := by
  rw [insert, if_neg (UInt64.not_le.mpr early), if_pos touches]

/-- A span that touches nothing enters between the cells before it and behind it. -/
theorem insert_of_apart (formed : span.WellFormed)
    (before : ∀ cell ∈ left, cell.span.WellFormed ∧ cell.span.high < span.low)
    (behind : ∀ cell ∈ right, span.high < cell.span.low) :
    insert id span (left ++ right) = left ++ ⟨id, span⟩ :: right := by
  rw [insert_append, insert_of_le, absorb_of_apart formed behind]
  · intro cell member
    exact UInt64.le_of_lt (UInt64.lt_trans formed (behind cell member))
  · intro cell member
    obtain ⟨cellFormed, ends⟩ := before cell member
    constructor
    · exact UInt64.lt_trans cellFormed ends
    · rwa [cellFormed.touches_iff, UInt64.not_le]

/-- So a span that is separated from all others enters where it belongs. -/
theorem insert_of_separated (id : NodeId)
    (separated : Separated (spansOf left ++ span :: spansOf right)) :
    insert id span (left ++ right) = left ++ ⟨id, span⟩ :: right := by
  obtain ⟨leftSeparated, restSeparated, before⟩ := separated_append.mp separated
  obtain ⟨formed, behind, -⟩ := separated_cons.mp restSeparated
  apply insert_of_apart formed
  · intro cell member
    exact ⟨formed_of_mem leftSeparated member,
      before _ (List.mem_map_of_mem member) _ List.mem_cons_self⟩
  · intro cell member
    exact behind _ (List.mem_map_of_mem member)

/-- After an insertion the addresses of the span are covered as well, and no others. -/
theorem covered_insert (separated : Separated (spansOf cells)) {address : UInt64} :
    Covered (spansOf (insert id span cells)) address
      ↔ span.Holds address ∨ Covered (spansOf cells) address := by
  induction cells with
  | nil => simp [insert, Covered]
  | cons cell rest induction =>
    obtain ⟨formed, behind, separatedRest⟩ := separated_spansOf_cons.mp separated
    have starts : ∀ later ∈ rest, cell.span.low ≤ later.span.low := by
      intro later member
      exact UInt64.le_of_lt (UInt64.lt_trans formed (behind later member))
    rw [insert]
    -- The span goes in front of the cell, or into it, or somewhere behind it.
    split
    · next late =>
      have ordered : ∀ later ∈ cell :: rest, span.low ≤ later.span.low :=
        List.forall_mem_cons.mpr
          ⟨late, fun later member => UInt64.le_trans late (starts later member)⟩
      exact covered_absorb ordered
    · next early =>
      split
      · next touches =>
        have ordered : cell.span.low ≤ span.low := UInt64.le_of_lt (UInt64.not_le.mp early)
        have grown : ∀ later ∈ rest, (hull cell.span span).low ≤ later.span.low := starts
        rw [covered_absorb grown, holds_hull ordered touches, spansOf_cons, covered_cons,
          or_right_comm, or_comm]
      · rw [spansOf_cons, covered_cons, induction separatedRest, spansOf_cons, covered_cons,
          or_left_comm]

/-- After an insertion separated cells are separated again. -/
theorem separated_insert (separated : Separated (spansOf cells)) (formed : span.WellFormed) :
    Separated (spansOf (insert id span cells)) := by
  induction cells with
  | nil => exact separated_singleton formed
  | cons cell rest induction =>
    obtain ⟨cellFormed, behind, separatedRest⟩ := separated_cons.mp separated
    rw [insert]
    split
    · exact separated_absorb formed separated
    · split
      · exact separated_absorb (wellFormed_hull cellFormed) separatedRest
      · next apart =>
        rw [cellFormed.touches_iff, UInt64.not_le] at apart
        have separatedAfter := induction separatedRest
        refine separated_cons.mpr ⟨cellFormed, ?_, separatedAfter⟩
        -- Whatever comes behind the cell starts at an address that was covered before or is new.
        intro later member
        have start : Covered (spansOf (insert id span rest)) later.low :=
          ⟨later, member, (separatedAfter.formed later member).holds_low⟩
        rcases (covered_insert separatedRest).mp start with inSpan | ⟨old, oldMember, inOld⟩
        · exact UInt64.lt_of_lt_of_le apart inSpan.1
        · exact UInt64.lt_of_lt_of_le (behind old oldMember) inOld.1

/-! ## The first cell -/

/-- The first cell has the id, and its span starts at the address. -/
def LedBy (id : NodeId) (low : UInt64) (cells : List Cell) : Prop :=
  ∃ high rest, cells = ⟨id, ⟨low, high⟩⟩ :: rest

/-- Whatever a cell takes in, it stays the first one and starts where it did. -/
theorem ledBy_absorb (id : NodeId) (span : Span) (cells : List Cell) :
    LedBy id span.low (absorb id span cells) := by
  induction cells generalizing span with
  | nil => exact ⟨span.high, [], rfl⟩
  | cons next rest induction =>
    rw [absorb]
    split
    · exact induction (hull span next.span)
    · exact ⟨span.high, next :: rest, rfl⟩

/-- A span that starts behind the start of the first cell leaves that cell the first one. -/
theorem LedBy.insert {first : NodeId} {low : UInt64} (led : LedBy first low cells)
    (behind : low < span.low) : LedBy first low (Cells.insert id span cells) := by
  obtain ⟨high, rest, rfl⟩ := led
  rw [Cells.insert, if_neg (UInt64.not_le.mpr behind)]
  split
  · exact ledBy_absorb first (hull ⟨low, high⟩ span) rest
  · exact ⟨high, Cells.insert id span rest, rfl⟩

/-! ## Insertions one after another -/

/-- What cells have gained by the insertion of spans, under whatever ids. -/
structure Gains (spans : List Span) (cells remaining : List Cell) : Prop where
  /-- They lie apart. -/
  separated : Separated (spansOf remaining)
  /-- They cover the addresses of the spans besides those that they covered before. -/
  covered_iff : ∀ address, Covered (spansOf remaining) address
    ↔ Covered spans address ∨ Covered (spansOf cells) address
  /-- The first one is what it was unless a span starts in front of it. -/
  ledBy : ∀ id low, LedBy id low cells → (∀ span ∈ spans, low < span.low) →
    LedBy id low remaining

theorem gains_nil (separated : Separated (spansOf cells)) : Gains [] cells cells :=
  ⟨separated, by simp, fun _ _ led _ => led⟩

/-- What is gained after one insertion is gained with it. -/
theorem Gains.cons {spans : List Span} {remaining : List Cell}
    (gains : Gains spans (Cells.insert id span cells) remaining)
    (separated : Separated (spansOf cells)) : Gains (span :: spans) cells remaining where
  separated := gains.separated
  covered_iff := by
    intro address
    rw [gains.covered_iff, covered_insert separated, covered_cons, or_left_comm, or_assoc]
  ledBy := by
    intro first low led behind
    rw [List.forall_mem_cons] at behind
    exact gains.ledBy first low (led.insert behind.1) behind.2

end Insert

end Cells

end MergedSpans
