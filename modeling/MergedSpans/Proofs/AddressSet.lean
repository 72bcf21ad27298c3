import MergedSpans.AddressSet
import MergedSpans.Proofs.Span.Separated

/-! # What a set of single addresses tells of itself

Read in ascending order, the addresses of a set fall into maximal runs. The runs are separated
spans that cover the set, and so they are the only such spans.

* `AddressSet.runsFrom_eq` — reading on from a run that is still open.
* `AddressSet.spans_eq` — the spans of a set are separated and cover it.
* `AddressSet.overlaps_eq`, `AddressSet.overlaps_eq_error_iff` — the answer of the query, and when it
  is refused.
-/

namespace MergedSpans

/-- An address that a span holds is not the last there is: it lies below the end of the span. -/
theorem Span.Holds.add_one_lt {span : Span} {address : UInt64} (held : span.Holds address) :
    address.toNat + 1 < Arithmetic.wordLimit := by
  have limit := span.high.toNat_lt
  have inside := UInt64.lt_iff_toNat_lt.mp held.2
  unfold Arithmetic.wordLimit
  omega

namespace AddressSet

variable {set : AddressSet} {run : Span} {rest : List UInt64}

/-- The address after one that is not the last of all. -/
theorem successor_eq {address : UInt64} (below : address.toNat + 1 < Arithmetic.wordLimit) :
    successor address = .ok (address + 1) := by
  have fits : Arithmetic.add address.toNat 1 = .ok (address.toNat + 1) :=
    Arithmetic.add_eq_ok_iff.mpr ⟨below, rfl⟩
  rw [successor, fits]
  show Except.ok (UInt64.ofNat (address.toNat + 1)) = _
  rw [UInt64.ofNat_add, UInt64.ofNat_toNat]
  rfl

/-- Nothing lies between an address and the one after it. -/
theorem lt_successor_iff {address : UInt64} (below : address.toNat + 1 < Arithmetic.wordLimit)
    (other : UInt64) : other < address + 1 ↔ other ≤ address := by
  unfold Arithmetic.wordLimit at below
  rw [UInt64.lt_iff_toNat_lt, UInt64.le_iff_toNat_le, UInt64.toNat_add]
  have one : (1 : UInt64).toNat = 1 := rfl
  omega

/-- What lies behind an address lies at the one after it, or behind that. -/
theorem successor_le {address : UInt64} (below : address.toNat + 1 < Arithmetic.wordLimit)
    (later : ∀ other ∈ rest, address < other) : ∀ other ∈ rest, address + 1 ≤ other := by
  intro other member
  rw [← UInt64.not_lt, lt_successor_iff below, UInt64.not_le]
  exact later other member

/-- The span of one address is well formed. -/
theorem formed_single {address : UInt64} (below : address.toNat + 1 < Arithmetic.wordLimit) :
    (⟨address, address + 1⟩ : Span).WellFormed :=
  (lt_successor_iff below address).mpr (UInt64.le_refl _)

/-- The span of one address holds that one alone. -/
theorem holds_single {address : UInt64} (below : address.toNat + 1 < Arithmetic.wordLimit)
    (other : UInt64) : (⟨address, address + 1⟩ : Span).Holds other ↔ other = address := by
  show address ≤ other ∧ other < address + 1 ↔ _
  rw [lt_successor_iff below]
  constructor
  · rintro ⟨reached, within⟩
    exact UInt64.le_antisymm within reached
  · rintro rfl
    exact ⟨UInt64.le_refl _, UInt64.le_refl _⟩

/-- A run that has grown by the address at its end holds what it held before, and that one. -/
theorem holds_grown (formed : run.WellFormed)
    (below : run.high.toNat + 1 < Arithmetic.wordLimit) (other : UInt64) :
    (⟨run.low, run.high + 1⟩ : Span).Holds other ↔ run.Holds other ∨ other = run.high := by
  show run.low ≤ other ∧ other < run.high + 1 ↔ (run.low ≤ other ∧ other < run.high) ∨ _
  rw [lt_successor_iff below]
  constructor
  · rintro ⟨reached, within⟩
    rcases UInt64.lt_or_eq_of_le within with before | same
    · exact Or.inl ⟨reached, before⟩
    · exact Or.inr same
  · rintro (⟨reached, before⟩ | rfl)
    · exact ⟨reached, UInt64.le_of_lt before⟩
    · exact ⟨UInt64.le_of_lt formed, UInt64.le_refl _⟩

/-- Ascending addresses that are read into an open run come out as separated spans, which cover the
run and the addresses. -/
theorem runsFrom_eq (formed : run.WellFormed) (ascending : rest.Pairwise (· < ·))
    (behind : ∀ address ∈ rest, run.high ≤ address)
    (below : ∀ address ∈ rest, address.toNat + 1 < Arithmetic.wordLimit) :
    ∃ spans, runsFrom run rest = .ok spans ∧ Separated spans
      ∧ ∀ address, Covered spans address ↔ run.Holds address ∨ address ∈ rest := by
  -- Induction on the addresses that are left, for every run that may be open by then.
  induction rest generalizing run with
  | nil => exact ⟨[run], rfl, separated_singleton formed, fun address => by simp⟩
  | cons next rest induction =>
    rw [List.forall_mem_cons] at behind below
    obtain ⟨later, ascendingRest⟩ := List.pairwise_cons.mp ascending
    have stepped := successor_le below.1 later
    have nextFormed : (⟨next, next + 1⟩ : Span).WellFormed := formed_single below.1
    rw [runsFrom, successor_eq below.1]
    by_cases adjacent : run.high = next
    · -- The run goes on.
      subst adjacent
      have grownFormed : (⟨run.low, run.high + 1⟩ : Span).WellFormed :=
        UInt64.lt_trans formed nextFormed
      obtain ⟨spans, read, separated, covers⟩ :=
        induction grownFormed ascendingRest stepped below.2
      refine ⟨spans, ?_, separated, ?_⟩
      · rw [← read]
        exact if_pos rfl
      · intro address
        rw [covers, holds_grown formed below.1, or_assoc, List.mem_cons]
    · -- A gap closes the run.
      obtain ⟨spans, read, separated, covers⟩ :=
        induction nextFormed ascendingRest stepped below.2
      refine ⟨run :: spans, ?_, separated_cons.mpr ⟨formed, ?_, separated⟩, ?_⟩
      · show (if run.high = next then runsFrom { run with high := next + 1 } rest
          else do return run :: (← runsFrom ⟨next, next + 1⟩ rest)) = _
        rw [if_neg adjacent, read]
        rfl
      · intro span member
        have start : Covered spans span.low :=
          ⟨span, member, (separated.formed span member).holds_low⟩
        have ends : run.high < next := UInt64.lt_of_le_of_ne behind.1 adjacent
        rcases (covers span.low).mp start with ⟨reached, -⟩ | inRest
        · exact UInt64.lt_of_lt_of_le ends reached
        · exact UInt64.lt_trans ends (later _ inRest)
      · intro address
        rw [covered_cons, covers, holds_single below.1, List.mem_cons]

/-- The spans of a set are separated and cover it. -/
theorem spans_eq (below : ∀ address ∈ set, address.toNat + 1 < Arithmetic.wordLimit) :
    ∃ spans, set.spans = .ok spans ∧ Separated spans
      ∧ ∀ address, Covered spans address ↔ address ∈ set := by
  obtain ⟨members, ascending⟩ := set
  cases members with
  | nil => exact ⟨[], rfl, separated_nil, fun address => by simp [mem_def]⟩
  | cons first rest =>
    have below : ∀ address ∈ first :: rest, address.toNat + 1 < Arithmetic.wordLimit := below
    rw [List.forall_mem_cons] at below
    obtain ⟨later, ascendingRest⟩ := List.pairwise_cons.mp ascending
    have formed : (⟨first, first + 1⟩ : Span).WellFormed := formed_single below.1
    obtain ⟨spans, read, separated, covers⟩ :=
      runsFrom_eq formed ascendingRest (successor_le below.1 later) below.2
    refine ⟨spans, ?_, separated, ?_⟩
    · rw [AddressSet.spans]
      show (do let after ← successor first; runsFrom ⟨first, after⟩ rest) = _
      rw [successor_eq below.1]
      exact read
    · intro address
      rw [covers, holds_single below.1, mem_def, List.mem_cons]

/-- The query answers whether the span holds an address of the set. -/
theorem overlaps_eq {span : Span} (formed : span.WellFormed) :
    ∃ hit, set.overlaps span = .ok hit
      ∧ (hit = true ↔ ∃ address, span.Holds address ∧ address ∈ set) := by
  have ordered : ¬ span.high < span.low := fun reversed =>
    UInt64.lt_irrefl _ (UInt64.lt_trans formed reversed)
  refine ⟨set.members.any fun address => decide (span.Holds address), ?_, ?_⟩
  · exact if_neg fun refused => ordered refused.2
  · simp [mem_def, and_comm]

/-- The query is refused if the span runs backwards and the set has been used. -/
theorem overlaps_eq_error_iff {span : Span} :
    set.overlaps span = .error .invertedRange ↔ set.used = true ∧ span.high < span.low := by
  unfold overlaps
  split
  · next refused => exact iff_of_true rfl refused
  · next answered => exact iff_of_false nofun answered

end AddressSet

end MergedSpans
