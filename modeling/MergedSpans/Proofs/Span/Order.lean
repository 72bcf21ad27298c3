import MergedSpans.Chain.Links
import MergedSpans.Proofs.Span.Separated

/-! # What ordered questions decide

The questions about two spans compare their bounds. What they are asked for is how the addresses in
the two lie to each other: whether they share one, whether one span has all of the other's, and
whether the two together leave no gap. For well-formed spans the bounds tell just that.

* `hull_high`, `holds_hull`, `wellFormed_hull` — the smallest span that covers two others.
* `WellFormed.meets_iff_shared`, `WellFormed.touches_iff_union`, `WellFormed.covers_iff_subset` —
  how two spans lie to each other, told by their addresses.
* `Decides` — a question that is answered without a fault, and as it is.
* `WellFormed.mergeable_decides`, `WellFormed.overlaps_decides`, `WellFormed.contains_decides`,
  `WellFormed.intersects_decides` — what each of the questions decides.
* `questions_decide_addresses` — all of them together.
-/

namespace MergedSpans

open Chain (hull)

/-! ## Hulls -/

section Hulls

variable {first second : Span} {address : UInt64}

theorem hull_high (first second : Span) :
    (hull first second).high = if first.high ≤ second.high then second.high else first.high := rfl

/-- The hull reaches an address when one of its parts does. -/
theorem le_hull_high_iff :
    address ≤ (hull first second).high ↔ address ≤ first.high ∨ address ≤ second.high := by
  rw [hull_high]
  split <;> grind

/-- The hull ends before an address when both of its parts do. -/
theorem hull_high_lt_iff :
    (hull first second).high < address ↔ first.high < address ∧ second.high < address := by
  rw [hull_high]
  split <;> grind

/-- The hull of a well-formed span with another one is well formed. -/
theorem wellFormed_hull (formed : first.WellFormed) : (hull first second).WellFormed := by
  unfold Span.WellFormed at formed ⊢
  rw [hull_high]
  show first.low < _
  split
  · exact UInt64.lt_of_lt_of_le formed (by assumption)
  · exact formed

/-- The hull of two spans that touch holds nothing but what they hold. -/
theorem holds_hull (ordered : first.low ≤ second.low) (touches : first.Touches second) :
    (hull first second).Holds address ↔ first.Holds address ∨ second.Holds address := by
  unfold Span.Holds Span.Touches at *
  rw [hull_high]
  show first.low ≤ address ∧ _ ↔ _
  split <;> grind

end Hulls

/-! ## Bounds and addresses -/

namespace Span.WellFormed

variable {span later : Span}

/-- A well-formed span meets a later one when the two share an address. -/
theorem meets_iff_shared (formed : span.WellFormed) (laterFormed : later.WellFormed)
    (ordered : span.low ≤ later.low) :
    span.Meets later ↔ ∃ address, span.Holds address ∧ later.Holds address := by
  rw [formed.meets_iff]
  constructor
  · exact fun inside => ⟨later.low, ⟨ordered, inside⟩, laterFormed.holds_low⟩
  · rintro ⟨address, ⟨-, inside⟩, reached, -⟩
    exact UInt64.lt_of_le_of_lt reached inside

/-- A well-formed span touches a later one when the two together have all addresses of their
hull. -/
theorem touches_iff_union (formed : span.WellFormed) (laterFormed : later.WellFormed)
    (ordered : span.low ≤ later.low) :
    span.Touches later ↔ { address | span.Holds address } ∪ { address | later.Holds address }
      = { address | (hull span later).Holds address } := by
  constructor
  · intro touches
    ext address
    exact (holds_hull ordered touches).symm
  · intro union
    by_contra gap
    rw [formed.touches_iff, UInt64.not_le] at gap
    -- Otherwise the end of the span lies in the gap, where the hull has it and the two have not.
    have ends : span.high < (hull span later).high :=
      UInt64.lt_of_lt_of_le (UInt64.lt_trans gap laterFormed)
        (le_hull_high_iff.mpr (Or.inr (UInt64.le_refl _)))
    have held : (hull span later).Holds span.high := ⟨UInt64.le_of_lt formed, ends⟩
    rcases (Set.ext_iff.mp union _).mpr held with inSpan | inLater
    · exact UInt64.lt_irrefl _ inSpan.2
    · exact UInt64.not_le.mpr gap inLater.1

/-- A span covers a later one when it has all addresses of it. -/
theorem covers_iff_subset (laterFormed : later.WellFormed) (ordered : span.low ≤ later.low) :
    span.Covers later ↔ ∀ address, later.Holds address → span.Holds address := by
  constructor
  · rintro ⟨-, ends⟩ address ⟨reached, inside⟩
    exact ⟨UInt64.le_trans ordered reached, UInt64.lt_of_lt_of_le inside ends⟩
  · intro subset
    refine ⟨ordered, UInt64.not_lt.mp fun beyond => ?_⟩
    -- Otherwise the later span has the address at which the first one ends, because it starts
    -- inside the first one.
    have inside : later.low < span.high := (subset later.low laterFormed.holds_low).2
    exact UInt64.lt_irrefl _ (subset span.high ⟨UInt64.le_of_lt inside, beyond⟩).2

end Span.WellFormed

/-! ## Decisions -/

/-- A question is answered without a fault, and the answer is whether something is so. -/
def Decides (answer : Except Fault Bool) (question : Prop) : Prop :=
  ∃ hit, answer = .ok hit ∧ (hit = true ↔ question)

section Decisions

variable {answer other : Except Fault Bool} {question same : Prop}

theorem decides_of_eq [Decidable question] (answered : answer = .ok (decide question)) :
    Decides answer question := ⟨_, answered, decide_eq_true_iff⟩

theorem Decides.congr (decides : Decides answer question) (iff : question ↔ same) :
    Decides answer same := by
  obtain ⟨hit, answered, told⟩ := decides
  exact ⟨hit, answered, told.trans iff⟩

theorem Decides.eq_true_iff (decides : Decides answer question) :
    answer = .ok true ↔ question := by
  obtain ⟨hit, rfl, told⟩ := decides
  rw [Except.ok.injEq, told]

/-- A question has one answer. -/
theorem Decides.unique (decides : Decides answer question) (decidesSame : Decides other question) :
    answer = other := by
  obtain ⟨hit, rfl, told⟩ := decides
  obtain ⟨otherHit, rfl, otherTold⟩ := decidesSame
  rw [Except.ok.injEq, Bool.eq_iff_iff, told, otherTold]

end Decisions

/-! ## The questions -/

namespace Span

variable {span later other : Span}

/-- Asked in descending order, a question is a fault. -/
theorem inOrder_of_lt (query : OrderedQuery) (answer : Bool) (descending : later.low < span.low) :
    inOrder query span later answer = .error (.outOfOrder query) :=
  if_neg (UInt64.not_le.mpr descending)

namespace WellFormed

theorem overlaps_decides (formed : span.WellFormed) (laterFormed : later.WellFormed)
    (ordered : span.low ≤ later.low) :
    Decides (span.overlaps later) (∃ address, span.Holds address ∧ later.Holds address) :=
  (decides_of_eq (overlaps_of_le ordered)).congr (formed.meets_iff_shared laterFormed ordered)

theorem mergeable_decides (formed : span.WellFormed) (laterFormed : later.WellFormed)
    (ordered : span.low ≤ later.low) :
    Decides (span.mergeable later)
      ({ address | span.Holds address } ∪ { address | later.Holds address }
        = { address | (hull span later).Holds address }) :=
  (decides_of_eq (mergeable_of_le ordered)).congr (formed.touches_iff_union laterFormed ordered)

theorem contains_decides (laterFormed : later.WellFormed) (ordered : span.low ≤ later.low) :
    Decides (span.contains later) (∀ address, later.Holds address → span.Holds address) :=
  (decides_of_eq (contains_of_le ordered)).congr (laterFormed.covers_iff_subset ordered)

/-- Spans that hold addresses intersect if they share one, in whatever order they are given. -/
theorem intersects_decides (formed : span.WellFormed) (otherFormed : other.WellFormed) :
    Decides (span.intersects other) (∃ address, span.Holds address ∧ other.Holds address) := by
  unfold intersects
  split
  · next ordered => exact formed.overlaps_decides otherFormed ordered
  · next descending =>
    have ordered : other.low ≤ span.low := UInt64.le_of_lt (UInt64.not_le.mp descending)
    exact (otherFormed.overlaps_decides formed ordered).congr (exists_congr fun _ => and_comm)

end WellFormed

/-- Two well-formed spans intersect just when they share an address; that question has no order. In
ascending order the spans overlap when they intersect, they can be merged just when their addresses
together are all those from the start of the first up to where the last of the two ends, and the
first contains the second just when it has all of its addresses; so what is contained overlaps, and
what overlaps can be merged. In descending order these three questions are faults. -/
theorem questions_decide_addresses {first second : Span} (formed : first.WellFormed)
    (secondFormed : second.WellFormed) :
    Decides (first.intersects second) (∃ address, first.Holds address ∧ second.Holds address)
      ∧ second.intersects first = first.intersects second
      ∧ (first.low ≤ second.low →
        first.overlaps second = first.intersects second
        ∧ Decides (first.mergeable second)
          ({ address | first.Holds address } ∪ { address | second.Holds address }
            = { address | first.low ≤ address ∧ address < max first.high second.high })
        ∧ Decides (first.contains second) (∀ address, second.Holds address → first.Holds address)
        ∧ (first.contains second = .ok true → first.overlaps second = .ok true)
        ∧ (first.overlaps second = .ok true → first.mergeable second = .ok true))
      ∧ (second.low < first.low →
        first.mergeable second = .error (.outOfOrder .mergeable)
        ∧ first.overlaps second = .error (.outOfOrder .overlaps)
        ∧ first.contains second = .error (.outOfOrder .contains)) := by
  have shared := formed.intersects_decides secondFormed
  have sharedBack := (secondFormed.intersects_decides formed).congr
    (exists_congr fun _ => and_comm)
  refine ⟨shared, sharedBack.unique shared, fun ordered => ?_, fun descending => ?_⟩
  · have overlap := formed.overlaps_decides secondFormed ordered
    refine ⟨overlap.unique shared, formed.mergeable_decides secondFormed ordered,
      secondFormed.contains_decides ordered, ?_, ?_⟩
    · rw [contains_of_le ordered, overlaps_of_le ordered, Except.ok.injEq, Except.ok.injEq,
        decide_eq_true_iff, decide_eq_true_iff]
      exact fun covers => covers.meets secondFormed
    · rw [overlaps_of_le ordered, mergeable_of_le ordered, Except.ok.injEq, Except.ok.injEq,
        decide_eq_true_iff, decide_eq_true_iff]
      exact Meets.touches
  · exact ⟨inOrder_of_lt _ _ descending, inOrder_of_lt _ _ descending,
      inOrder_of_lt _ _ descending⟩

/-- The second span starts where the first one ends, and it reaches up to the last address but one.
The two share no address and leave none out between them, and the first has not all addresses of the
second. In descending order each question but the one for an intersection is a fault. -/
theorem questions_decide_addresses_of_neighbours :
    let first : Span := ⟨0x1000, 0x2000⟩
    let second : Span := ⟨0x2000, 0xffffffffffffffff⟩
    first.WellFormed ∧ second.WellFormed ∧ first.low ≤ second.low
      ∧ first.intersects second = .ok false ∧ second.intersects first = .ok false
      ∧ ¬ (∃ address, first.Holds address ∧ second.Holds address)
      ∧ { address | first.Holds address } ∪ { address | second.Holds address }
        = { address | 0x1000 ≤ address ∧ address < 0xffffffffffffffff }
      ∧ ¬ (∀ address, second.Holds address → first.Holds address)
      ∧ second.mergeable first = .error (.outOfOrder .mergeable)
      ∧ second.overlaps first = .error (.outOfOrder .overlaps)
      ∧ second.contains first = .error (.outOfOrder .contains) := by
  intro first second
  have formed : first.WellFormed := by decide
  have secondFormed : second.WellFormed := by decide
  have ordered : first.low ≤ second.low := by decide
  obtain ⟨shared, symmetric, ascending, -⟩ := questions_decide_addresses formed secondFormed
  obtain ⟨-, union, subset, -, -⟩ := ascending ordered
  obtain ⟨-, -, -, descending⟩ := questions_decide_addresses secondFormed formed
  have apart : first.intersects second = .ok false := by decide
  refine ⟨formed, secondFormed, ordered, apart, symmetric.trans apart, ?_, ?_, ?_,
    descending (by decide)⟩
  · rw [← shared.eq_true_iff, apart]
    decide
  · exact union.eq_true_iff.mp (by decide)
  · rw [← subset.eq_true_iff]
    decide

end Span

end MergedSpans
