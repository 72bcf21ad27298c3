import MergedSpans.AddressSet
import MergedSpans.Span.Build
import MergedSpans.Proofs.Span.Separated
import Mathlib.Data.Set.Card

/-! # The number of addresses

Separated spans share no address, so the numbers of addresses in them add up to the number of those
that they cover; and since they all end below the last address there is, the sum fits in 64 bits.

* `Span.size`, `Span.encard_holds` — the addresses of a span, counted.
* `sizeSum`, `Separated.encard_covered` — those of separated spans.
* `Separated.sizeSum_lt` — there are fewer than 2 ^ 64.
-/

namespace MergedSpans

namespace Span

/-- The number of addresses between the bounds of a span. -/
def size (span : Span) : Nat := span.high.toNat - span.low.toNat

/-- So many addresses lie in the span. -/
theorem encard_holds (span : Span) : { address | span.Holds address }.encard = span.size := by
  have listed : { address | span.Holds address } = ↑span.addresses.toFinset := by
    ext address
    rw [List.coe_toFinset]
    exact mem_addresses.symm
  have distinct : span.addresses.Nodup := span.pairwise_addresses.imp UInt64.ne_of_lt
  rw [listed, Set.encard_coe_eq_coe_finsetCard, List.toFinset_card_of_nodup distinct, addresses,
    List.length_map, List.length_range', size]

/-- A well-formed span tells its size. -/
theorem WellFormed.length_eq {span : Span} (formed : span.WellFormed) :
    span.length = .ok span.size :=
  Arithmetic.sub_eq_ok_iff.mpr
    ⟨UInt64.le_iff_toNat_le.mp (UInt64.le_of_lt formed), rfl⟩

end Span

/-- The sizes of spans added up. -/
def sizeSum (spans : List Span) : Nat := (spans.map Span.size).sum

section Sums

variable {span : Span} {spans : List Span}

@[simp] theorem sizeSum_nil : sizeSum [] = 0 := rfl

@[simp] theorem sizeSum_cons : sizeSum (span :: spans) = span.size + sizeSum spans := rfl

/-- The first spans have no more addresses than all of them. -/
theorem sizeSum_take_le (spans : List Span) (count : Nat) :
    sizeSum (spans.take count) ≤ sizeSum spans := by
  induction spans generalizing count with
  | nil => simp
  | cons span rest induction =>
    cases count with
    | zero => exact Nat.zero_le _
    | succ count => exact Nat.add_le_add_left (induction count) span.size

/-- Separated spans cover as many addresses as there are in all of them together. -/
theorem Separated.encard_covered (separated : Separated spans) :
    { address | Covered spans address }.encard = sizeSum spans := by
  induction spans with
  | nil => simp
  | cons span rest induction =>
    obtain ⟨-, -, separatedRest⟩ := separated_cons.mp separated
    have apart : Disjoint { address | span.Holds address } { address | Covered rest address } :=
      Set.disjoint_left.mpr fun address held covered => separated.not_holds covered held
    have parts : { address | Covered (span :: rest) address }
        = { address | span.Holds address } ∪ { address | Covered rest address } := by
      ext address
      exact covered_cons
    rw [parts, Set.encard_union_eq apart, span.encard_holds, induction separatedRest, sizeSum_cons,
      Nat.cast_add]

/-- Separated spans behind a number have fewer addresses than there are behind it. -/
theorem Separated.add_sizeSum_lt (separated : Separated spans) {low : Nat}
    (behind : ∀ span ∈ spans, low ≤ span.low.toNat) (fits : low < Arithmetic.wordLimit) :
    low + sizeSum spans < Arithmetic.wordLimit := by
  -- Induction on the spans: those after the first one lie behind its end.
  induction spans generalizing low with
  | nil => exact fits
  | cons span rest induction =>
    obtain ⟨formed, apart, separatedRest⟩ := separated_cons.mp separated
    have starts := behind span List.mem_cons_self
    have ends : span.low.toNat < span.high.toNat := UInt64.lt_iff_toNat_lt.mp formed
    have later := induction separatedRest
      (fun other member => (UInt64.lt_iff_toNat_lt.mp (apart other member)).le)
      span.high.toNat_lt
    rw [sizeSum_cons, Span.size]
    omega

/-- Separated spans have fewer than 2 ^ 64 addresses. -/
theorem Separated.sizeSum_lt (separated : Separated spans) :
    sizeSum spans < Arithmetic.wordLimit := by
  have bounded := separated.add_sizeSum_lt (fun span _ => Nat.zero_le span.low.toNat) (by decide)
  rwa [Nat.zero_add] at bounded

end Sums

end MergedSpans
