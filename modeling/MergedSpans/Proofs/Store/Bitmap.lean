import MergedSpans.Store.Bitmap
import MergedSpans.Proofs.Store.Slots
import Mathlib.Data.Nat.Bitwise

/-! # What a bitmap tells

A bitmap that is in step with the slots of a slab has just the positions of the slots that are not
vacant. So the first number that it does not have is the position of the first vacant slot, or none
of the slab's; the places past the slab in the last word make no difference, because none of them is
ever taken.

* `Bitmap.Has` — the numbers in a bitmap; `has_set`, `has_unset` — how they change.
* `firstClear?_eq_some`, `firstClear?_eq_none` — a search by words is a search by numbers.
* `Bitmap.Marks` — the bitmap is in step with some slots, and stays so when they change.
-/

namespace MergedSpans

namespace Bitmap

variable {bitmap : Bitmap} {index other place : Nat} {word : UInt64}

/-! ## Bits of a word -/

theorem toNat_bit (index : Nat) : (bit index).toNat = 2 ^ (index % wordBits) := by
  have small : index % wordBits < 64 := Nat.mod_lt _ (by decide)
  have fits : index % wordBits < 2 ^ 64 := Nat.lt_trans small (by decide)
  rw [bit, UInt64.toNat_shiftLeft, UInt64.toNat_ofNat_of_lt' fits, Nat.mod_eq_of_lt small]
  show (1 <<< (index % wordBits)) % 2 ^ 64 = _
  rw [Nat.one_shiftLeft]
  exact Nat.mod_eq_of_lt (Nat.pow_lt_pow_right (by decide) small)

theorem getLsbD_bit (index place : Nat) :
    (bit index).toBitVec.getLsbD place = decide (index % wordBits = place) := by
  rw [← BitVec.testBit_toNat, UInt64.toNat_toBitVec, toNat_bit, Nat.testBit_two_pow]

/-- All bits of a full word are set. -/
theorem getLsbD_fullWord (inside : place < wordBits) :
    fullWord.toBitVec.getLsbD place = true := by
  have full : fullWord.toBitVec = BitVec.allOnes 64 := by decide
  rw [full, BitVec.getLsbD_allOnes]
  exact decide_eq_true inside

/-- Every other word has a clear bit. -/
theorem exists_clear (notFull : word ≠ fullWord) :
    ∃ place < wordBits, word.toBitVec.getLsbD place = false := by
  by_contra none
  push Not at none
  refine notFull (UInt64.toBitVec_inj.mp (BitVec.eq_of_getLsbD_eq fun place inside => ?_))
  rw [getLsbD_fullWord inside]
  exact Bool.eq_true_of_not_eq_false (none place inside)

/-- The ones below the first clear bit end at a clear bit. -/
theorem trailingOnes_spec (notFull : word ≠ fullWord) :
    trailingOnes word < wordBits ∧ word.toBitVec.getLsbD (trailingOnes word) = false
      ∧ ∀ place < trailingOnes word, word.toBitVec.getLsbD place = true := by
  obtain ⟨clear, inside, isClear⟩ := exists_clear notFull
  unfold trailingOnes
  have found := List.findIdx_lt_length_of_exists
    (p := fun place => !word.toBitVec.getLsbD place) ⟨clear, List.mem_range.mpr inside, by simpa⟩
  refine ⟨by simpa using found, ?_, fun place before => ?_⟩
  · have stops := List.findIdx_getElem (w := found)
    rw [List.getElem_range] at stops
    simpa using stops
  · have passed := List.not_of_lt_findIdx before
    simpa using passed

/-! ## Numbers in a bitmap -/

/-- The bitmap has a place for a number. -/
def Fits (bitmap : Bitmap) (index : Nat) : Prop := index / wordBits < bitmap.words.size

/-- The bitmap has a number. -/
def Has (bitmap : Bitmap) (index : Nat) : Prop :=
  (bitmap.words.getD (index / wordBits) 0).toBitVec.getLsbD (index % wordBits) = true

/-- A number is told by its word and its place in there. -/
theorem eq_iff_of_div_eq (sameWord : other / wordBits = index / wordBits) :
    other = index ↔ index % wordBits = other % wordBits := by
  unfold wordBits at *
  omega

theorem getD_modify (change : UInt64 → UInt64) (words : Array UInt64) (block word : Nat) :
    (words.modify block change).getD word 0
      = if block = word ∧ word < words.size then change (words.getD word 0)
        else words.getD word 0 := by
  simp only [Array.getD_eq_getD_getElem?, Array.getElem?_modify]
  by_cases inside : word < words.size
  · split <;> simp_all
  · split <;> simp_all

/-- A number that has a place can be put in, and no other one enters. -/
theorem has_set (fits : bitmap.Fits index) :
    (bitmap.set index).Has other ↔ other = index ∨ bitmap.Has other := by
  unfold Has set
  rw [getD_modify]
  by_cases sameWord : index / wordBits = other / wordBits
  · rw [if_pos ⟨sameWord, sameWord ▸ fits⟩, UInt64.toBitVec_or, BitVec.getLsbD_or, getLsbD_bit,
      Bool.or_eq_true, decide_eq_true_iff, eq_iff_of_div_eq sameWord.symm, or_comm]
  · rw [if_neg fun both => sameWord both.1, or_iff_right]
    exact fun same => sameWord (same ▸ rfl)

/-- A number can be taken out, and no other one leaves. -/
theorem has_unset : (bitmap.unset index).Has other ↔ other ≠ index ∧ bitmap.Has other := by
  unfold Has unset
  rw [getD_modify]
  by_cases sameWord : index / wordBits = other / wordBits
  · by_cases fits : other / wordBits < bitmap.words.size
    · have inside : other % wordBits < 64 := Nat.mod_lt _ (by decide)
      rw [if_pos ⟨sameWord, fits⟩, UInt64.toBitVec_and, BitVec.getLsbD_and, UInt64.toBitVec_not,
        BitVec.getLsbD_not, getLsbD_bit, ne_eq, eq_iff_of_div_eq sameWord.symm]
      simp [inside, and_comm]
    · -- Past the words there are no numbers.
      rw [if_neg fun both => fits both.2]
      have beyond : bitmap.words.getD (other / wordBits) 0 = 0 := by
        simp [Array.getD_eq_getD_getElem?, Nat.not_lt.mp fits]
      simp [beyond]
  · rw [if_neg fun both => sameWord both.1, and_iff_right]
    exact fun same => sameWord (same ▸ rfl)

theorem fits_set : (bitmap.set index).Fits other ↔ bitmap.Fits other := by
  rw [Fits, Fits, set, Array.size_modify]

theorem fits_unset : (bitmap.unset index).Fits other ↔ bitmap.Fits other := by
  rw [Fits, Fits, unset, Array.size_modify]

/-- A new bitmap has a place for every number below its capacity. -/
theorem fits_clear {capacity : Nat} (inside : index < capacity) : (clear capacity).Fits index := by
  unfold Fits clear wordBits
  rw [Array.size_replicate]
  omega

/-- A new bitmap has no number. -/
theorem not_has_clear (capacity index : Nat) : ¬ (clear capacity).Has index := by
  unfold Has clear
  rw [Array.getD_eq_getD_getElem?, Array.getElem?_replicate]
  split <;> simp

/-! ## The search -/

/-- The number that is found is not in the bitmap, but all lower ones are. -/
theorem firstClear?_eq_some (found : bitmap.firstClear? = some index) :
    ¬ bitmap.Has index ∧ ∀ lower < index, bitmap.Has lower := by
  obtain ⟨block, searched, rfl⟩ := Option.map_eq_some_iff.mp found
  obtain ⟨inside, notFull, passed⟩ := Array.findIdx?_eq_some_iff_getElem.mp searched
  have word : bitmap.words.getD block 0 = bitmap.words[block] := by
    simp [Array.getD_eq_getD_getElem?, inside]
  obtain ⟨within, isClear, ones⟩ :=
    @trailingOnes_spec (bitmap.words.getD block 0) (by simpa [word] using notFull)
  have split : ∀ place < wordBits,
      (block * wordBits + place) / wordBits = block ∧ (block * wordBits + place) % wordBits = place := by
    unfold wordBits
    omega
  constructor
  · obtain ⟨quotient, remainder⟩ := split _ within
    unfold Has
    rw [quotient, remainder, isClear]
    exact Bool.false_ne_true
  · intro lower before
    unfold Has
    have remainder : lower % wordBits < wordBits := Nat.mod_lt _ (by decide)
    -- A lower number is in a word that was passed over, or among the ones that were counted.
    rcases Nat.lt_trichotomy (lower / wordBits) block with earlier | same | later
    · have full : bitmap.words.getD (lower / wordBits) 0 = fullWord := by
        have notClear := passed _ earlier
        simpa [Array.getD_eq_getD_getElem?, Nat.lt_trans earlier inside] using notClear
      rw [full]
      exact getLsbD_fullWord remainder
    · rw [same]
      refine ones _ ?_
      unfold wordBits at *
      omega
    · unfold wordBits at *
      omega

/-- Where no number is found, the bitmap has all that it has a place for. -/
theorem firstClear?_eq_none (none : bitmap.firstClear? = none) (fits : bitmap.Fits index) :
    bitmap.Has index := by
  have full := Array.findIdx?_eq_none_iff.mp (Option.map_eq_none_iff.mp none)
  have word : bitmap.words.getD (index / wordBits) 0 = fullWord := by
    have inside : index / wordBits < bitmap.words.size := fits
    have notClear := full _ (Array.getElem_mem inside)
    simpa [Array.getD_eq_getD_getElem?, inside] using notClear
  unfold Has
  rw [word]
  exact getLsbD_fullWord (Nat.mod_lt _ (by decide))

/-! ## Marked slots -/

/-- The bitmap has a place for every slot, and has the positions of those that are not vacant. -/
structure Marks (used : Bitmap) (slots : Array Slot) : Prop where
  /-- Every slot has its place. -/
  fits : ∀ index < slots.size, used.Fits index
  /-- The positions that are taken are those of slots in use or out of use for good. -/
  has_iff : ∀ index,
    used.Has index ↔ ∃ slot, slots[index]? = some slot ∧ slot.content ≠ .vacant

section Marks

variable {used after : Bitmap} {slots : Array Slot} {slot : Slot}

/-- A new bitmap marks no unused slot. -/
theorem marks_clear (capacity : Nat) :
    (clear capacity).Marks (Array.replicate capacity .unused) where
  fits := fun index inside => fits_clear (by simpa using inside)
  has_iff := by
    intro index
    refine iff_of_false (not_has_clear capacity index) ?_
    rintro ⟨slot, present, notVacant⟩
    rw [Array.getElem?_replicate, Option.ite_none_right_eq_some, Option.some.injEq] at present
    exact notVacant (present.2 ▸ rfl)

/-- Marks that change for one slot fit a change of that slot. -/
theorem Marks.modify (marks : used.Marks slots) (present : slots[index]? = some slot)
    {change : Slot → Slot} (fits : ∀ other, used.Fits other → after.Fits other)
    (elsewhere : ∀ other, other ≠ index → (after.Has other ↔ used.Has other))
    (there : after.Has index ↔ (change slot).content ≠ .vacant) :
    after.Marks (slots.modify index change) where
  fits := by
    intro other inside
    rw [Array.size_modify] at inside
    exact fits other (marks.fits other inside)
  has_iff := by
    intro other
    by_cases same : other = index
    · subst same
      rw [there, Slots.getElem?_modify_self present]
      simp
    · rw [elsewhere other same, marks.has_iff, Array.getElem?_modify, if_neg (Ne.symm same)]

/-- A slot that is put to use is marked. -/
theorem Marks.occupy (marks : used.Marks slots) (present : slots[index]? = some slot)
    (node : Node) : (used.set index).Marks (slots.modify index (·.occupy node)) := by
  have inside : index < slots.size := (Array.getElem?_eq_some_iff.mp present).1
  have place := marks.fits index inside
  refine marks.modify present (fun _ => fits_set.mpr) (fun other apart => ?_) ?_
  · rw [has_set place, or_iff_right apart]
  · exact iff_of_true ((has_set place).mpr (.inl rfl)) Content.noConfusion

/-- A slot that is emptied is marked no more. -/
theorem Marks.vacate (marks : used.Marks slots) (present : slots[index]? = some slot)
    (inService : slot.vacate.isRetired = false) :
    (used.unset index).Marks (slots.modify index Slot.vacate) := by
  refine marks.modify present (fun _ => fits_unset.mpr) (fun other apart => ?_) ?_
  · rw [has_unset, and_iff_right apart]
  · exact iff_of_false (fun has => (has_unset.mp has).1 rfl)
      (not_not.mpr (Slot.content_vacate_of_not_retired inService))

/-- A slot that was in use and is out of use for good stays marked. -/
theorem Marks.retire (marks : used.Marks slots) (present : slots[index]? = some slot)
    (live : slot.isLive = true) (retired : slot.vacate.isRetired = true) :
    used.Marks (slots.modify index Slot.vacate) := by
  refine marks.modify present (fun _ => id) (fun _ _ => Iff.rfl) (iff_of_true ?_ ?_)
  · refine (marks.has_iff index).mpr ⟨slot, present, fun vacant => ?_⟩
    rw [Slot.isLive_eq_false_of_vacant vacant] at live
    cases live
  · intro vacant
    rw [Slot.isRetired, vacant] at retired
    cases retired

/-- A slot whose node changes is marked as before. -/
theorem Marks.write (marks : used.Marks slots) (present : slots[index]? = some slot)
    (change : Node → Node) : used.Marks (slots.modify index (·.write change)) := by
  refine marks.modify present (fun _ => id) (fun _ _ => Iff.rfl) ?_
  rw [marks.has_iff, present, ne_eq, Slot.content_write_eq_iff change slot (by simp)]
  simp

/-- The first clear bit, if it is one of the slots', marks the first vacant slot. -/
theorem Marks.firstClear?_eq_some (marks : used.Marks slots)
    (found : used.firstClear? = some index) (inside : index < slots.size) :
    (∃ slot, slots[index]? = some slot ∧ slot.content = .vacant)
      ∧ ∀ lower < index, ∃ slot, slots[lower]? = some slot ∧ slot.content ≠ .vacant := by
  obtain ⟨isClear, taken⟩ := Bitmap.firstClear?_eq_some found
  refine ⟨⟨slots[index], Array.getElem?_eq_getElem inside, ?_⟩, fun lower before =>
    (marks.has_iff lower).mp (taken lower before)⟩
  by_contra notVacant
  exact isClear ((marks.has_iff index).mpr ⟨_, Array.getElem?_eq_getElem inside, notVacant⟩)

/-- If no clear bit is one of the slots', no slot is vacant. -/
theorem Marks.firstClear?_eq_none (marks : used.Marks slots)
    (none : ∀ index, used.firstClear? = some index → slots.size ≤ index)
    (present : slots[index]? = some slot) : slot.content ≠ .vacant := by
  have inside : index < slots.size := (Array.getElem?_eq_some_iff.mp present).1
  have taken : used.Has index := by
    cases found : used.firstClear? with
    | none => exact Bitmap.firstClear?_eq_none found (marks.fits index inside)
    | some first =>
      exact (Bitmap.firstClear?_eq_some found).2 index (inside.trans_le (none first found))
  obtain ⟨other, presentSame, notVacant⟩ := (marks.has_iff index).mp taken
  rw [present] at presentSame
  exact Option.some.inj presentSame ▸ notVacant

end Marks

end Bitmap

end MergedSpans
