/-! # Numerals

Natural numbers as digits, most significant first, without a sign, a mark or a leading zero.

* `decimal` — base ten.
* `hex` — base sixteen, with lower-case letters.
-/

namespace MergedSpans.Text

/-- The decimal numeral of `value`. -/
def decimal (value : Nat) : String := String.ofList (Nat.toDigits 10 value)

/-- The lower-case hexadecimal numeral of `value`. -/
def hex (value : Nat) : String := String.ofList (Nat.toDigits 16 value)

@[simp] theorem toList_decimal (value : Nat) :
    (decimal value).toList = Nat.toDigits 10 value := String.toList_ofList

@[simp] theorem toList_hex (value : Nat) :
    (hex value).toList = Nat.toDigits 16 value := String.toList_ofList

end MergedSpans.Text
