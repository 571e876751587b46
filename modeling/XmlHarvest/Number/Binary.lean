/-!
# Doubles by their value

A double is not a number, an infinity, or a finite value `± m * 2 ^ e`. Functions that need the
exact value of a double take it apart here, and exact results become doubles here, by rounding
to nearest with ties to even.

## Main definitions

* `Number.Shape`, `Number.shape`: what a double stands for.
* `Number.nearestBits`: the bits of the double nearest to a ratio of naturals.
* `Number.ofRatio`: that double, with a sign.
-/

namespace XmlHarvest.Number

/-- What a double stands for: a finite value is `± significand * 2 ^ exponent`. -/
inductive Shape where
  | nan
  | infinite (negative : Bool)
  | finite (negative : Bool) (significand : Nat) (exponent : Int)
deriving DecidableEq, Repr

/-- The value of a double. A finite one has its exponent field at least at `-1074`, the grid of
the subnormal values. -/
def shape (x : Float) : Shape :=
  let bits := x.toBits.toNat
  let negative := bits / Nat.pow 2 63 == 1
  let field : Nat := bits / Nat.pow 2 52 % Nat.pow 2 11
  let fraction : Nat := bits % Nat.pow 2 52
  if field = 2047 then
    if fraction = 0 then .infinite negative else .nan
  else if field = 0 then .finite negative fraction (-1074)
  else .finite negative (Nat.pow 2 52 + fraction) (field - 1075)

/-! ## Rounding a ratio -/

/-- The numerator and the denominator of `num / den / 2 ^ e`. -/
def scaled (num den : Nat) (e : Int) : Nat × Nat :=
  (num * Nat.pow 2 (-e).toNat, den * Nat.pow 2 e.toNat)

/-- The natural nearest to `num / den`; a half goes to the even neighbour. -/
def roundHalfEven (num den : Nat) : Nat :=
  let q := num / den
  match compare (2 * (num % den)) den with
  | .lt => q
  | .gt => q + 1
  | .eq => if q % 2 = 0 then q else q + 1

/-- The exponent at which a positive ratio has a significand of 53 bits, but never below the grid
of the subnormal values. The logarithms fix it up to one. -/
def gridExponent (num den : Nat) : Int :=
  let e : Int := (num.log2 : Int) - den.log2 - 53
  let (a, b) := scaled num den e
  max (-1074) (if a / b < Nat.pow 2 53 then e else e + 1)

/-- The bits of the double nearest to `num / den`, ties to even, without its sign. On the grid of
exponent `e` the significand `m` counts on from the least bits of that grid, so a significand
that rounds up to the next power of two needs no correction, and a value beyond the range ends
at the bits of infinity. -/
def nearestBits (num den : Nat) : Nat :=
  if num = 0 then 0
  else
    let e := gridExponent num den
    let (a, b) := scaled num den e
    min (2047 * Nat.pow 2 52) ((e + 1074).toNat * Nat.pow 2 52 + roundHalfEven a b)

/-- The double nearest to `± num / den`. -/
def ofRatio (negative : Bool) (num den : Nat) : Float :=
  Float.ofBits (UInt64.ofNat ((if negative then Nat.pow 2 63 else 0) + nearestBits num den))

/-- The double nearest to a natural number. -/
def ofNat (n : Nat) : Float :=
  ofRatio false n 1

/-- Not a number. -/
def nan : Float :=
  Float.ofBits 0x7FF8000000000000

/-- Positive infinity. -/
def infinity : Float :=
  Float.ofBits 0x7FF0000000000000

end XmlHarvest.Number
