import MergedSpans.Span.Basic
import Mathlib.Data.List.Basic

/-! # Separated spans

Spans are separated when each of them holds an address, they ascend, and at least one address lies
between any two of them. A set of addresses has only one separated list of spans, which is why
nothing else needs to be said about a chain than which addresses it covers.

* `Span.WellFormed.meets_iff`, `Span.WellFormed.touches_iff` — how a well-formed span lies to a
  later one is told by its end alone.
* `Separated` — well formed, ascending, and neither meeting nor touching.
* `Covered` — an address lies in one of the spans.
* `Separated.eq_of_covered` — the addresses determine the spans.
-/

namespace MergedSpans

/-! ## Well-formed spans -/

namespace Span.WellFormed

variable {span later : Span}

/-- The first address of a well-formed span lies in it. -/
theorem holds_low (formed : span.WellFormed) : span.Holds span.low :=
  ⟨UInt64.le_refl _, formed⟩

/-- A well-formed span meets a later one when that one starts before its end. -/
theorem meets_iff (formed : span.WellFormed) : span.Meets later ↔ later.low < span.high := by
  constructor
  · rintro (same | meets)
    · exact same ▸ formed
    · exact meets
  · exact Or.inr

/-- A well-formed span touches a later one when that one starts no later than at its end. -/
theorem touches_iff (formed : span.WellFormed) : span.Touches later ↔ later.low ≤ span.high := by
  constructor
  · rintro (same | touches)
    · exact UInt64.le_of_lt (same ▸ formed)
    · exact touches
  · exact Or.inr

end Span.WellFormed

/-! ## Lists of spans -/

/-- The spans are well formed, and each ends before the next one starts. -/
structure Separated (spans : List Span) : Prop where
  /-- Each span holds an address. -/
  formed : ∀ span ∈ spans, span.WellFormed
  /-- An address lies between any two of them. -/
  apart : spans.Pairwise fun first second => first.high < second.low

/-- An address is covered when one of the spans holds it. -/
def Covered (spans : List Span) (address : UInt64) : Prop := ∃ span ∈ spans, span.Holds address

section Lists

variable {span : Span} {spans first second : List Span} {address : UInt64}

@[simp] theorem separated_nil : Separated [] := ⟨by simp, .nil⟩

theorem separated_singleton (formed : span.WellFormed) : Separated [span] :=
  ⟨by simpa using formed, List.pairwise_singleton _ _⟩

/-- Separated spans are separated from the first of them on. -/
theorem separated_cons :
    Separated (span :: spans)
      ↔ span.WellFormed ∧ (∀ later ∈ spans, span.high < later.low) ∧ Separated spans := by
  constructor
  · rintro ⟨formed, apart⟩
    rw [List.pairwise_cons] at apart
    exact ⟨formed span List.mem_cons_self, apart.1,
      fun later member => formed later (List.mem_cons_of_mem _ member), apart.2⟩
  · rintro ⟨formed, behind, separated⟩
    exact ⟨List.forall_mem_cons.mpr ⟨formed, separated.formed⟩,
      List.pairwise_cons.mpr ⟨behind, separated.apart⟩⟩

/-- Two lists in a row are separated when each is, and the second starts behind the first. -/
theorem separated_append :
    Separated (first ++ second)
      ↔ Separated first ∧ Separated second
        ∧ ∀ before ∈ first, ∀ later ∈ second, before.high < later.low := by
  constructor
  · rintro ⟨formed, apart⟩
    rw [List.pairwise_append] at apart
    exact ⟨⟨fun span member => formed span (List.mem_append_left _ member), apart.1⟩,
      ⟨fun span member => formed span (List.mem_append_right _ member), apart.2.1⟩, apart.2.2⟩
  · rintro ⟨left, right, behind⟩
    refine ⟨fun span member => ?_, List.pairwise_append.mpr ⟨left.apart, right.apart, behind⟩⟩
    rcases List.mem_append.mp member with before | later
    · exact left.formed span before
    · exact right.formed span later

/-- Separated spans stay so when some of them are left out. -/
theorem Separated.sublist (separated : Separated second) (fewer : first.Sublist second) :
    Separated first :=
  ⟨fun span member => separated.formed span (fewer.subset member), separated.apart.sublist fewer⟩

/-- No span stands twice in a list of separated ones: it would start behind its own end. -/
theorem Separated.nodup (separated : Separated spans) : spans.Nodup := by
  refine separated.apart.imp_of_mem fun {first second} member _ apart => ?_
  rintro rfl
  exact UInt64.lt_irrefl _ (UInt64.lt_trans (separated.formed first member) apart)

@[simp] theorem not_covered_nil : ¬ Covered [] address := by simp [Covered]

@[simp] theorem covered_cons :
    Covered (span :: spans) address ↔ span.Holds address ∨ Covered spans address := by
  simp [Covered]

theorem covered_singleton : Covered [span] address ↔ span.Holds address := by simp

@[simp] theorem covered_append :
    Covered (first ++ second) address ↔ Covered first address ∨ Covered second address := by
  simp only [Covered, List.mem_append, or_and_right, exists_or]

end Lists

/-! ## Uniqueness -/

section Uniqueness

variable {first second : Span} {rest spans others : List Span}

/-- Nothing is covered below the first of separated spans. -/
theorem Separated.low_le (separated : Separated (first :: rest)) {address : UInt64}
    (covered : Covered (first :: rest) address) : first.low ≤ address := by
  obtain ⟨formed, behind, -⟩ := separated_cons.mp separated
  rcases covered_cons.mp covered with held | ⟨later, member, held⟩
  · exact held.1
  · have starts : first.low < later.low := UInt64.lt_trans formed (behind later member)
    exact UInt64.le_of_lt (UInt64.lt_of_lt_of_le starts held.1)

/-- Behind the first of separated spans nothing is covered that it holds itself. -/
theorem Separated.not_holds (separated : Separated (first :: rest)) {address : UInt64}
    (covered : Covered rest address) : ¬ first.Holds address := by
  obtain ⟨-, behind, -⟩ := separated_cons.mp separated
  obtain ⟨later, member, held⟩ := covered
  intro inFirst
  have ends : first.high < address := UInt64.lt_of_lt_of_le (behind later member) held.1
  exact UInt64.lt_irrefl _ (UInt64.lt_trans ends inFirst.2)

/-- Nothing is covered at the end of the first of separated spans. -/
theorem Separated.not_covered_high (separated : Separated (first :: rest)) :
    ¬ Covered (first :: rest) first.high := by
  obtain ⟨-, behind, -⟩ := separated_cons.mp separated
  intro covered
  rcases covered_cons.mp covered with held | ⟨later, member, held⟩
  · exact UInt64.lt_irrefl _ held.2
  · exact UInt64.not_le.mpr (behind later member) held.1

/-- Two separated lists that cover the same addresses start at the same address. -/
theorem Separated.low_eq (left : Separated (first :: rest)) (right : Separated (second :: others))
    (same : ∀ address, Covered (first :: rest) address ↔ Covered (second :: others) address) :
    first.low = second.low := by
  have firstFormed := left.formed first List.mem_cons_self
  have secondFormed := right.formed second List.mem_cons_self
  apply UInt64.le_antisymm
  · exact left.low_le ((same _).mpr (covered_cons.mpr (Or.inl secondFormed.holds_low)))
  · exact right.low_le ((same _).mp (covered_cons.mpr (Or.inl firstFormed.holds_low)))

/-- The first span of one list reaches no further than that of another one which starts at the
same address and covers at least as much. -/
theorem Separated.high_le (right : Separated (second :: others)) (start : first.low = second.low)
    (same : ∀ address, Covered (first :: rest) address → Covered (second :: others) address) :
    first.high ≤ second.high := by
  by_contra beyond
  have secondFormed : second.low < second.high := right.formed second List.mem_cons_self
  -- Otherwise the end of the second span is held by the first, and so covered by both lists.
  have held : first.Holds second.high := by
    constructor
    · rw [start]
      exact UInt64.le_of_lt secondFormed
    · exact UInt64.not_le.mp beyond
  exact right.not_covered_high (same _ (covered_cons.mpr (Or.inl held)))

/-- Separated spans are determined by the addresses that they cover. -/
theorem Separated.eq_of_covered (left : Separated spans) (right : Separated others)
    (same : ∀ address, Covered spans address ↔ Covered others address) : spans = others := by
  -- Induction on one list, with a case split of the other: a list without spans covers nothing, and
  -- two lists with spans have the same first one.
  induction spans generalizing others with
  | nil =>
    cases others with
    | nil => rfl
    | cons second others =>
      have formed := right.formed second List.mem_cons_self
      exact absurd ((same _).mpr (covered_cons.mpr (Or.inl formed.holds_low))) not_covered_nil
  | cons first rest induction =>
    cases others with
    | nil =>
      have formed := left.formed first List.mem_cons_self
      exact absurd ((same _).mp (covered_cons.mpr (Or.inl formed.holds_low))) not_covered_nil
    | cons second others =>
      have start := left.low_eq right same
      have stop : first.high = second.high := UInt64.le_antisymm
        (right.high_le start fun address => (same address).mp)
        (left.high_le start.symm fun address => (same address).mpr)
      obtain rfl : first = second := by
        cases first
        cases second
        simp_all
      obtain ⟨-, -, leftRest⟩ := separated_cons.mp left
      obtain ⟨-, -, rightRest⟩ := separated_cons.mp right
      -- The first span has no part in what is left on either side, so the rests cover the same.
      refine congrArg _ (induction leftRest rightRest fun address => ?_)
      have whole := same address
      rw [covered_cons, covered_cons] at whole
      constructor
      · intro covered
        exact (whole.mp (Or.inr covered)).resolve_left (left.not_holds covered)
      · intro covered
        exact (whole.mpr (Or.inr covered)).resolve_left (right.not_holds covered)

end Uniqueness

end MergedSpans
