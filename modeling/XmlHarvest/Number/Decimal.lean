import XmlHarvest.Text.Blank
import XmlHarvest.Number.Binary

/-!
# Numbers as decimal text

Numbers are written as an optional minus sign, digits and an optional fraction, never with an
exponent. Reading accepts exactly that notation with blanks around it and gives the nearest
double; writing chooses the fewest digits that read back.

## Main definitions

* `Number.Decimal`: a decimal number `digits * 10 ^ exponent`.
* `Number.readUnsigned?`: digits with an optional fraction.
* `Number.isPlain`: the test that a text has to pass before it is read.
* `Number.ofText`: the number that a text denotes, `nan` for any other text.
* `Number.Tie`: which of two equally near decimals is preferred.
* `Number.shortest`: the decimal with the fewest digits that reads back as a given double.
* `Number.toText`: the text of a number.
-/

namespace XmlHarvest.Number

/-- The number `digits * 10 ^ exponent`. -/
structure Decimal where
  digits : Nat
  exponent : Int
deriving DecidableEq, Repr

namespace Decimal

/-- The numerator of a decimal. -/
def num (d : Decimal) : Nat :=
  d.digits * Nat.pow 10 d.exponent.toNat

/-- The denominator of a decimal. -/
def den (d : Decimal) : Nat :=
  Nat.pow 10 (-d.exponent).toNat

/-- A decimal whose last digit is not zero, of the same value; at most `fuel` zeros are taken
off. -/
def strip : (fuel : Nat) → Decimal → Decimal
  | 0, d => d
  | fuel + 1, d => if d.digits % 10 = 0 then strip fuel ⟨d.digits / 10, d.exponent + 1⟩ else d

/-- A decimal in positional notation. -/
def toChars (d : Decimal) : List Char :=
  let ds := Nat.toDigits 10 d.digits
  if 0 ≤ d.exponent then ds ++ List.replicate d.exponent.toNat '0'
  else
    let places := (-d.exponent).toNat
    if places < ds.length then ds.take (ds.length - places) ++ '.' :: ds.drop (ds.length - places)
    else '0' :: '.' :: (List.replicate (places - ds.length) '0' ++ ds)

end Decimal

/-! ## Reading -/

/-- The value of a run of digits, counted on from `acc`. -/
def digitsValue (acc : Nat) : List Char → Nat
  | [] => acc
  | c :: r => digitsValue (10 * acc + (c.toNat - '0'.toNat)) r

/-- Digits with an optional fraction; one of the two parts may be missing, and a lone point is no
number. -/
def readUnsigned? (s : List Char) : Option Decimal :=
  let whole := s.takeWhile Char.isDigit
  match s.dropWhile Char.isDigit with
  | [] => if whole.isEmpty then none else some ⟨digitsValue 0 whole, 0⟩
  | c :: fraction =>
    if c = '.' && fraction.all Char.isDigit && !(whole.isEmpty && fraction.isEmpty) then
      some ⟨digitsValue (digitsValue 0 whole) fraction, -(fraction.length : Int)⟩
    else none

/-- The double nearest to a decimal, with a sign. -/
def ofDecimal (negative : Bool) (d : Decimal) : Float :=
  ofRatio negative d.num d.den

/-- Whether a text is made of digits and at most one point, and is neither empty nor a lone
point. -/
def isPlain (s : List Char) : Bool :=
  !s.isEmpty && s != ['.'] && s.all (fun c => c.isDigit || c == '.') && s.count '.' ≤ 1

/-- The number that a text denotes behind its sign, if the text passes the test. -/
def ofPlain (negative : Bool) (s : List Char) : Float :=
  if isPlain s then (readUnsigned? s).elim nan (ofDecimal negative) else nan

/-- The number that a text denotes: an optional minus sign and digits with an optional fraction,
with blanks around them. Any other text is not a number. -/
def ofChars (s : List Char) : Float :=
  match Text.trimChars s with
  | '-' :: r => ofPlain true r
  | r => ofPlain false r

/-- The number that a string denotes. -/
def ofText (s : String) : Float :=
  ofChars s.toList

/-! ## Writing -/

/-- The least `k` with `num / den < 10 ^ k`, for a positive ratio. -/
def magnitude (num den : Nat) : Int :=
  if den ≤ num then (Nat.toDigits 10 (num / den)).length
  else 1 - ((Nat.toDigits 10 ((den - 1) / num)).length : Int)

/-- Which of two decimals that are equally near to a number is preferred. -/
inductive Tie where
  /-- The greater one. -/
  | greater
  /-- The one whose last digit is even. -/
  | even
deriving DecidableEq, Repr

/-- Whether the ratio `a / b` goes down to the whole number below it, which is the nearer one or
preferred to its successor. -/
def Tie.goesDown (tie : Tie) (a b : Nat) : Bool :=
  match tie, compare (2 * a) ((2 * (a / b) + 1) * b) with
  | _, .lt => true
  | .even, .eq => a / b % 2 == 0
  | _, _ => false

/-- The decimal of at most `n` digits next to the positive ratio `num / den` that reads back as
the double with the given bits, if there is one; of two such decimals the nearer, and of two
equally near the one preferred. -/
def candidate? (tie : Tie) (bits num den n : Nat) : Option Decimal :=
  let grid := magnitude num den - n
  let a := num * Nat.pow 10 (-grid).toNat
  let b := den * Nat.pow 10 grid.toNat
  let low := Decimal.strip n ⟨a / b, grid⟩
  let high := Decimal.strip (n + 1) ⟨a / b + 1, grid⟩
  let fits (d : Decimal) : Bool := nearestBits d.num d.den == bits
  match fits low, fits high with
  | true, true => some (if tie.goesDown a b then low else high)
  | true, false => some low
  | false, true => some high
  | false, false => none

/-- The decimal with the fewest digits that reads back as the finite positive double
`m * 2 ^ e`. Seventeen digits are enough; the exact value stands behind the search. -/
def shortest (tie : Tie) (m : Nat) (e : Int) : Decimal :=
  let num := m * Nat.pow 2 e.toNat
  let den := Nat.pow 2 (-e).toNat
  match (List.range' 1 17).findSome? (candidate? tie (nearestBits num den) num den) with
  | some d => d
  | none => if 0 ≤ e then ⟨num, 0⟩ else ⟨m * Nat.pow 5 (-e).toNat, e⟩

/-- The text of a number. Both zeros are written alike, and of two equally short and equally near
texts the greater number is written. -/
def toText (x : Float) : String :=
  match shape x with
  | .nan => "NaN"
  | .infinite negative => if negative then "-Infinity" else "Infinity"
  | .finite negative m e =>
    if m = 0 then "0"
    else
      let digits := String.ofList (shortest .greater m e).toChars
      if negative then "-" ++ digits else digits

end XmlHarvest.Number
