/-!
# Digits

Natural numbers as runs of digits, in bases up to sixteen. Letters serve as digits from ten on.

## Main definitions

* `Text.digitValue?`: the value of a digit.
* `Text.natOfDigits?`: the value of a run of digits.
* `Text.hexDigits`, `Text.hexPadded`: the hexadecimal digits of a number.
-/

namespace XmlHarvest.Text

/-! ## Reading -/

/-- The value of a digit in bases up to sixteen, letters in either case. -/
def digitValue? (c : Char) : Option Nat :=
  if '0' ≤ c ∧ c ≤ '9' then some (c.toNat - '0'.toNat)
  else if 'a' ≤ c ∧ c ≤ 'f' then some (c.toNat - 'a'.toNat + 10)
  else if 'A' ≤ c ∧ c ≤ 'F' then some (c.toNat - 'A'.toNat + 10)
  else none

/-- The value of a run of digits, counted on from `acc`; every one must be below the base. -/
def natOfDigits? (base acc : Nat) : List Char → Option Nat
  | [] => some acc
  | c :: r => do
    let d ← digitValue? c
    if d < base then natOfDigits? base (base * acc + d) r else none

/-! ## Writing -/

/-- The hexadecimal digits of a number, lower case, without leading zeros. -/
def hexDigits (n : Nat) : List Char :=
  Nat.toDigits 16 n

/-- A hexadecimal numeral of exactly `width` digits: the number modulo `16 ^ width`. -/
def hexPadded (width n : Nat) : List Char :=
  match width with
  | 0 => []
  | w + 1 => hexPadded w (n / 16) ++ [Nat.digitChar (n % 16)]

end XmlHarvest.Text
