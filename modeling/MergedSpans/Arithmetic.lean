import MergedSpans.Fault

/-! # Bounded arithmetic

Sums, differences and products of natural numbers that have to stay below a limit. A result out
of range is a fault, never a wrapped number.

* `wordLimit`, `halfLimit` — the first numbers that do not fit in 64 and in 32 bits.
* `addBelow`, `add`, `sub`, `mul` — the operations.
* `saturatingMul` — the product, or the greatest word when it does not fit.
-/

namespace MergedSpans.Arithmetic

/-- The first number that does not fit in 64 bits, `2 ^ 64`. -/
def wordLimit : Nat := 0x10000000000000000

/-- The first number that does not fit in 32 bits, `2 ^ 32`. -/
def halfLimit : Nat := 0x100000000

/-- The sum of two numbers, when it is below `limit`. -/
def addBelow (limit first second : Nat) : Except Fault Nat :=
  if first + second < limit then .ok (first + second) else .error (.overflow .add)

/-- The sum of two numbers, when it fits in 64 bits. -/
def add (first second : Nat) : Except Fault Nat := addBelow wordLimit first second

/-- The difference of two numbers, when it is not negative. -/
def sub (first second : Nat) : Except Fault Nat :=
  if second ≤ first then .ok (first - second) else .error (.overflow .subtract)

/-- The product of two numbers, when it fits in 64 bits. -/
def mul (first second : Nat) : Except Fault Nat :=
  if first * second < wordLimit then .ok (first * second) else .error (.overflow .multiply)

/-- The product of two numbers, or the greatest 64-bit number when it does not fit. -/
def saturatingMul (first second : Nat) : Nat := min (first * second) (wordLimit - 1)

theorem addBelow_eq_ok_iff {limit first second sum : Nat} :
    addBelow limit first second = .ok sum ↔ first + second < limit ∧ first + second = sum := by
  unfold addBelow
  split <;> simp <;> omega

theorem add_eq_ok_iff {first second sum : Nat} :
    add first second = .ok sum ↔ first + second < wordLimit ∧ first + second = sum :=
  addBelow_eq_ok_iff

theorem sub_eq_ok_iff {first second difference : Nat} :
    sub first second = .ok difference ↔ second ≤ first ∧ first - second = difference := by
  unfold sub
  split <;> simp <;> omega

theorem mul_eq_ok_iff {first second product : Nat} :
    mul first second = .ok product ↔ first * second < wordLimit ∧ first * second = product := by
  unfold mul
  split <;> simp <;> omega

end MergedSpans.Arithmetic
