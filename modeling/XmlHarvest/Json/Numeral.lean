import XmlHarvest.Number.Decimal

/-!
# Numbers in JSON

A number in a JSON text is an integer or a double, and is shown as one or the other when it stands
where something else is expected.

## Main definitions

* `Json.Numeral`: an integer or a double.
* `Json.Numeral.describe`: a number in words.
-/

namespace XmlHarvest.Json

/-- A number: an integer, or a double. -/
inductive Numeral where
  | integer (n : Int)
  | double (x : Float)

/-- The fewest digits of a double, an even one at the end of two equally near: plain notation with a
fraction for exponents of the leading digit from -5 to 15, and one digit before the point and an
exponent with its sign otherwise. -/
def doubleText (x : Float) : String :=
  match Number.shape x with
  | .nan => "NaN"
  | .infinite negative => if negative then "-inf" else "inf"
  | .finite negative m e =>
    let body : List Char :=
      if m = 0 then ['0', '.', '0']
      else
        let d := Number.shortest .even m e
        let digits := Nat.toDigits 10 d.digits
        let point : Int := digits.length + d.exponent
        if 0 ≤ d.exponent && point ≤ 16 then d.toChars ++ ['.', '0']
        else if -5 < point && point ≤ 16 then d.toChars
        else
          let mantissa := match digits with
            | [] => []
            | [c] => [c]
            | c :: r => c :: '.' :: r
          let sign := if 0 < point then '+' else '-'
          mantissa ++ 'e' :: sign :: Nat.toDigits 10 (point - 1).natAbs
    String.ofList (if negative then '-' :: body else body)

/-- A number in words. -/
def Numeral.describe : Numeral → String
  | .integer n => s!"integer `{n}`"
  | .double x => "floating point `" ++ doubleText x ++ "`"

end XmlHarvest.Json
