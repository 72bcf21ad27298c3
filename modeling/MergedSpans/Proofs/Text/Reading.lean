import MergedSpans.Text.Numeral

/-! # Reading numerals

A numeral is read digit by digit, each of them looked up among those of its base.

* `digitOf?` — the digit that a character stands for.
* `numberOf?` — the number that a word of digits stands for; `numberOf?_toDigits` — a numeral is
  read as the number that it was written for.
* `not_mem_toDigits` — what is no digit does not occur in a numeral.
-/

namespace MergedSpans.Text

/-- The digit of a base that a character stands for. -/
def digitOf? (base : Nat) (char : Char) : Option Nat :=
  (List.range base).find? fun digit => digit.digitChar == char

/-- The number that digits of a base stand for, most significant first. -/
def numberOf? (base : Nat) (word : List Char) : Option Nat :=
  (word.mapM (digitOf? base)).map (·.foldl (fun value digit => base * value + digit) 0)

variable {base : Nat}

/-- Different digits have different characters. -/
theorem digitChar_inj {first second : Nat} (firstSmall : first < 16) (secondSmall : second < 16)
    (same : first.digitChar = second.digitChar) : first = second := by
  have all : ∀ a b : Fin 16, a.val.digitChar = b.val.digitChar → a = b := by decide
  exact congrArg Fin.val (all ⟨first, firstSmall⟩ ⟨second, secondSmall⟩ same)

/-- The character of a digit stands for it. -/
theorem digitOf?_digitChar (small : base ≤ 16) {digit : Nat} (inBase : digit < base) :
    digitOf? base digit.digitChar = some digit := by
  rw [digitOf?, List.find?_range_eq_some]
  refine ⟨beq_self_eq_true _, List.mem_range.mpr inBase, fun other before => ?_⟩
  have apart : other.digitChar ≠ digit.digitChar := fun same =>
    Nat.ne_of_lt before (digitChar_inj (by omega) (by omega) same)
  simpa using apart

/-- A word with one more digit at its end stands for so many times the base, and the digit. -/
theorem numberOf?_concat {word : List Char} {value digit : Nat} (small : base ≤ 16)
    (read : numberOf? base word = some value) (inBase : digit < base) :
    numberOf? base (word ++ [digit.digitChar]) = some (base * value + digit) := by
  obtain ⟨digits, readDigits, rfl⟩ := Option.map_eq_some_iff.mp read
  simp [numberOf?, List.mapM_append, readDigits, digitOf?_digitChar small inBase]

/-- A numeral is read as the number that it was written for. -/
theorem numberOf?_toDigits (large : 1 < base) (small : base ≤ 16) (number : Nat) :
    numberOf? base (Nat.toDigits base number) = some number := by
  -- Induction on the number: without its last digit the numeral is that of the quotient.
  induction number using Nat.strongRecOn with
  | ind number induction =>
    rw [Nat.toDigits_eq_if large]
    split
    · next single =>
      have empty : numberOf? base [] = some 0 := rfl
      simpa using numberOf?_concat small empty single
    · have quotient := induction (number / base) (Nat.div_lt_self (by omega) large)
      rw [numberOf?_concat small quotient (Nat.mod_lt _ (by omega)), Nat.div_add_mod]

/-- A character that is no digit does not occur in a numeral. -/
theorem not_mem_toDigits (large : 1 < base) (small : base ≤ 16) {char : Char}
    (apart : ∀ digit < 16, digit.digitChar ≠ char) (number : Nat) :
    char ∉ Nat.toDigits base number := by
  induction number using Nat.strongRecOn with
  | ind number induction =>
    rw [Nat.toDigits_eq_if large]
    split
    · rw [List.mem_singleton]
      exact (apart _ (by omega)).symm
    · rw [List.mem_append, List.mem_singleton, not_or]
      have last : number % base < base := Nat.mod_lt _ (by omega)
      exact ⟨induction _ (Nat.div_lt_self (by omega) large), (apart _ (by omega)).symm⟩

end MergedSpans.Text
