import XmlHarvest.Number.Binary

/-!
# Integers near a double

Floor, ceiling, rounding and remainder, computed on the exact value of the double. Results carry
the sign of the argument also where they are zero.

## Main definitions

* `Number.floor`, `Number.ceiling`: the nearest integer on one side.
* `Number.round`: the floor of the argument plus one half.
* `Number.remainder`: what a quotient cut off towards zero leaves.
-/

namespace XmlHarvest.Number

/-- The integer that a rule picks for a finite value with a fraction; other values stay as they
are. `up` says whether the magnitude of a value with that sign grows when a fraction is lost. -/
def toInteger (up : (negative : Bool) → Bool) (x : Float) : Float :=
  match shape x with
  | .finite negative m e =>
    if 0 ≤ e then x
    else
      let unit := Nat.pow 2 (-e).toNat
      let q := m / unit
      ofRatio negative (if up negative && m % unit != 0 then q + 1 else q) 1
  | _ => x

/-- The greatest integer that is not above `x`. -/
def floor (x : Float) : Float :=
  toInteger id x

/-- The least integer that is not below `x`. -/
def ceiling (x : Float) : Float :=
  toInteger not x

/-- The floor of `x` plus one half, the sum taken in doubles. Values that are not finite stay as
they are. -/
def round (x : Float) : Float :=
  if x.isNaN || x.isInf then x else floor (x + ofRatio false 1 2)

/-- What is left of `x` after taking away the multiple of `y` that a quotient cut off towards zero
gives. It has the sign of `x`. -/
def remainder (x y : Float) : Float :=
  match shape x, shape y with
  | .nan, _ | _, .nan | .infinite _, _ => nan
  | .finite .., .infinite _ => x
  | .finite negative m e, .finite _ n f =>
    if n = 0 then nan
    else
      let g := min e f
      let a := m * Nat.pow 2 (e - g).toNat
      let b := n * Nat.pow 2 (f - g).toNat
      ofRatio negative (a % b * Nat.pow 2 g.toNat) (Nat.pow 2 (-g).toNat)

end XmlHarvest.Number
