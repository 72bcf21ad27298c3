import MergedSpans.Proofs.Registry.Claims
import Mathlib.Data.Nat.Prime.Basic
import Mathlib.Order.Bounds.Basic

/-! # What a sizing comes to

The counts of a sizing have 32 bits and the arithmetic on them has 64, so nothing that is computed
from them can go out of range.

* `isPowerOfTwo_and_le_pageAlign_iff` — a usable page size is a divisor of the alignment of slots.
* `mul_halves_eq` — two 32-bit counts have a product.
* `validate_eq_ok_iff`, `validate_ne_tooManyPools` — when a sizing is usable.
* `slotsReserved_eq`, `isLeast_slotsReserved` — the slots that the pages of a pool hold.
-/

namespace MergedSpans.Sizing

/-! ## Page sizes -/

/-- The powers of two that are not above the alignment of slots, itself a power of two, are just its
divisors. Zero is neither. -/
theorem isPowerOfTwo_and_le_pageAlign_iff (size : Nat) :
    size.isPowerOfTwo ∧ size ≤ pageAlign ↔ size ∣ pageAlign := by
  have power : pageAlign = 2 ^ 12 := rfl
  rw [power, Nat.dvd_prime_pow Nat.prime_two]
  constructor
  · rintro ⟨⟨exponent, rfl⟩, small⟩
    exact ⟨exponent, (Nat.pow_le_pow_iff_right Nat.one_lt_two).mp small, rfl⟩
  · rintro ⟨exponent, small, rfl⟩
    exact ⟨⟨exponent, rfl⟩, Nat.pow_le_pow_right Nat.two_pos small⟩

/-! ## Products of counts -/

/-- Two 32-bit counts have a product. -/
theorem mul_halves_eq (first second : UInt32) :
    Arithmetic.mul first.toNat second.toNat = .ok (first.toNat * second.toNat) := by
  have firstSmall := first.toNat_lt
  have secondSmall := second.toNat_lt
  have product : first.toNat * second.toNat ≤ (2 ^ 32 - 1) * (2 ^ 32 - 1) :=
    Nat.mul_le_mul (by omega) (by omega)
  rw [Arithmetic.mul_eq_ok_iff]
  refine ⟨?_, rfl⟩
  unfold Arithmetic.wordLimit
  omega

variable (sizing : Sizing)

/-! ## Usable sizings -/

/-- The product of its counts is never what makes a sizing unusable. -/
theorem validate_ne_tooManyPools : sizing.validate ≠ .error .tooManyPools := by
  simp only [validate, mul_halves_eq]
  repeat' split
  all_goals simp

/-- A sizing is usable when it counts something of each kind and hardware pages fit in the pages of
slots. -/
theorem validate_eq_ok_iff :
    sizing.validate = .ok () ↔ 0 < sizing.poolSlots ∧ 0 < sizing.maxParticipants
      ∧ 0 < sizing.setsPerParticipant ∧ sizing.pageSize.toNat ∣ pageAlign := by
  have positive (count : UInt32) : 0 < count ↔ count ≠ 0 := by
    rw [UInt32.lt_iff_toNat_lt, ← UInt32.toNat_inj.ne]
    exact Nat.pos_iff_ne_zero
  simp only [positive, ← isPowerOfTwo_and_le_pageAlign_iff]
  unfold validate
  rw [mul_halves_eq]
  by_cases slots : sizing.poolSlots = 0
  · simp [slots]
  by_cases participants : sizing.maxParticipants = 0
  · simp [slots, participants]
  by_cases sets : sizing.setsPerParticipant = 0
  · simp [slots, participants, sets]
  by_cases even : sizing.pageSize.toNat.isPowerOfTwo
  · by_cases large : pageAlign < sizing.pageSize.toNat
    · simp [slots, participants, sets, even, large]
    · simp [slots, participants, sets, even, large, Nat.not_lt.mp large]
  · simp [slots, participants, sets, even]

/-! ## Pages of slots -/

/-- The pages of a pool hold the least number of slots that fills pages and is enough. -/
theorem isLeast_slotsReserved :
    IsLeast {slots | slotsPerPage ∣ slots ∧ sizing.poolSlots.toNat ≤ slots}
      (sizing.pagesPerPool * slotsPerPage) := by
  unfold pagesPerPool slotsPerPage
  constructor
  · exact ⟨Nat.dvd_mul_left _ _, by omega⟩
  · rintro slots ⟨⟨pages, rfl⟩, enough⟩
    omega

/-- The pages of a pool hold fewer than 85 slots too many, so their number is within range. -/
theorem slotsReserved_eq : sizing.slotsReserved = .ok (sizing.pagesPerPool * slotsPerPage) := by
  have small := sizing.poolSlots.toNat_lt
  unfold slotsReserved
  rw [Arithmetic.mul_eq_ok_iff]
  refine ⟨?_, rfl⟩
  unfold pagesPerPool slotsPerPage Arithmetic.wordLimit
  omega

/-- A pool has as many slots as the sizing says. -/
theorem capacity_eq : (Pool.ofSizing sizing).capacity = sizing.poolSlots.toNat :=
  Array.size_replicate

/-- Each slot of a pool lies in one of its pages. -/
theorem div_slotsPerPage_lt {index : Nat} (inside : index < sizing.poolSlots.toNat) :
    index / slotsPerPage < sizing.pagesPerPool := by
  unfold pagesPerPool
  unfold slotsPerPage
  omega

/-- A sizing is usable just when its three counts are positive and its page size divides the
alignment of slots, so that the slots of a pool take whole hardware pages; the product of the counts
never stands in the way. Whatever the sizing, its budget is the exact product, and the pages of a
pool hold the least number of slots that fills pages and is enough: every slot of the pool lies in
one of them. -/
theorem sizes_exact :
    (sizing.validate = .ok () ↔ 0 < sizing.poolSlots ∧ 0 < sizing.maxParticipants
        ∧ 0 < sizing.setsPerParticipant ∧ sizing.pageSize.toNat ∣ pageAlign)
      ∧ (sizing.validate = .ok () →
        sizing.pageSize.toNat ∣ sizing.pagesPerPool * pageAlign)
      ∧ sizing.validate ≠ .error .tooManyPools
      ∧ sizing.budget = sizing.maxParticipants.toNat * sizing.setsPerParticipant.toNat
      ∧ (∃ reserved, sizing.slotsReserved = .ok reserved
        ∧ IsLeast {slots | slotsPerPage ∣ slots ∧ sizing.poolSlots.toNat ≤ slots} reserved)
      ∧ (Pool.ofSizing sizing).capacity = sizing.poolSlots.toNat
      ∧ ∀ index < sizing.poolSlots.toNat, index / slotsPerPage < sizing.pagesPerPool := by
  have usable := sizing.validate_eq_ok_iff
  refine ⟨usable, fun valid => ?_, sizing.validate_ne_tooManyPools, sizing.budget_eq,
    ⟨_, sizing.slotsReserved_eq, sizing.isLeast_slotsReserved⟩, sizing.capacity_eq,
    fun _ inside => sizing.div_slotsPerPage_lt inside⟩
  obtain ⟨-, -, -, divides⟩ := usable.mp valid
  exact Dvd.dvd.mul_left divides _

end MergedSpans.Sizing
