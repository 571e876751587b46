import XmlHarvest.Json.Fault

/-!
# Reading numbers in JSON

A number without a fraction and an exponent is an integer if 64 bits hold it. Any other number is a
double, built from as many leading digits as fit into 64 bits and one multiplication or division by
a power of ten; it is not always the double nearest to the number as written.

## Main definitions

* `Json.makeDouble`: the double that is built from a significand and a decimal exponent.
* `Json.readNumeral`: the number at the start of a text.
-/

namespace XmlHarvest.Json

/-! ## Doubles -/

/-- The greatest number that 64 bits hold. -/
def maxWord : Nat := Nat.pow 2 64 - 1

/-- As many digits as 64 bits hold, counted on from `acc`, and the number of digits that are left
out. -/
def significand (acc : Nat) : List Char → Nat × Nat
  | [] => (acc, 0)
  | c :: r =>
    let next := 10 * acc + (c.toNat - '0'.toNat)
    if next ≤ maxWord then significand next r else (acc, r.length + 1)

/-- `x * 10 ^ e`, computed by one multiplication or division, after divisions by `10 ^ 308` as long
as the exponent is below that range. A result out of range is refused. The steps bound the number
of these divisions; three of them take any significand to zero. -/
def scale (steps : Nat) (x : Float) (e : Int) : Option Float :=
  if 0 ≤ e then
    if e ≤ 308 then
      let y := x * Number.ofNat (Nat.pow 10 e.toNat)
      if y.isInf then none else some y
    else if x == 0.0 then some x
    else none
  else if -308 ≤ e then some (x / Number.ofNat (Nat.pow 10 (-e).toNat))
  else if x == 0.0 then some x
  else
    match steps with
    | 0 => some 0.0
    | steps + 1 => scale steps (x / Number.ofNat (Nat.pow 10 308)) (e + 308)

/-- A double with a sign, a significand and a decimal exponent. -/
def makeDouble (negative : Bool) (m : Nat) (e : Int) : Except Fault Numeral :=
  match scale 4 (Number.ofNat m) e with
  | some x => .ok (.double (if negative then -x else x))
  | none => .error .malformed

/-! ## Reading -/

/-- The greatest decimal exponent that is looked at. -/
def maxExponent : Nat := Nat.pow 2 31 - 1

/-- A double whose exponent follows: the text behind the letter `e`. -/
def readExponent (negative : Bool) (m : Nat) (e : Int) (s : List Char) :
    Except Fault (Numeral × List Char) := do
  let (down, s) := match s with
    | '+' :: r => (false, r)
    | '-' :: r => (true, r)
    | r => (false, r)
  let digits := s.takeWhile Char.isDigit
  let rest := s.dropWhile Char.isDigit
  if digits.isEmpty then throw (if s.isEmpty then .truncated else .malformed)
  let x := Number.digitsValue 0 digits
  if maxExponent < x then
    if m ≠ 0 && !down then throw .malformed
    return (.double (if negative then -0.0 else 0.0), rest)
  let shifted : Int := if down then e - x else e + x
  let clamped : Int := max (-(maxExponent : Int) - 1) (min maxExponent shifted)
  return (← makeDouble negative m clamped, rest)

/-- A double whose significand and exponent are known except for an exponent that may follow. -/
def readTail (negative : Bool) (m : Nat) (e : Int) (s : List Char) :
    Except Fault (Numeral × List Char) :=
  match s with
  | 'e' :: r | 'E' :: r => readExponent negative m e r
  | r => do return (← makeDouble negative m e, r)

/-- A double whose fraction follows: the text behind the point. -/
def readFraction (negative : Bool) (m : Nat) (e : Int) (s : List Char) :
    Except Fault (Numeral × List Char) := do
  let digits := s.takeWhile Char.isDigit
  if digits.isEmpty then throw (if s.isEmpty then .truncated else .malformed)
  let (m, left) := significand m digits
  readTail negative m (e - (digits.length - left : Nat)) (s.dropWhile Char.isDigit)

/-- An integer, or a double if 64 bits do not hold it. Minus zero is a double. -/
def makeInteger (negative : Bool) (m : Nat) : Numeral :=
  if !negative then .integer m
  else if m = 0 || Nat.pow 2 63 < m then .double (-(Number.ofNat m))
  else .integer (-m)

/-- The number at the start of a text, behind its minus sign if it has one. A zero at the front
stands alone. -/
def readNumeral (negative : Bool) (s : List Char) : Except Fault (Numeral × List Char) := do
  let digits := s.takeWhile Char.isDigit
  let rest := s.dropWhile Char.isDigit
  if digits.isEmpty then throw (if s.isEmpty then .truncated else .malformed)
  if digits.head? = some '0' && 1 < digits.length then throw .malformed
  let (m, left) := significand 0 digits
  match rest with
  | '.' :: r => readFraction negative m left r
  | 'e' :: r | 'E' :: r => readExponent negative m left r
  | r =>
    if left = 0 then return (makeInteger negative m, r)
    else return (← makeDouble negative m left, r)

end XmlHarvest.Json
