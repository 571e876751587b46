import XmlHarvest.Text.Category.Letter
import XmlHarvest.Text.Category.Mark
import XmlHarvest.Text.Category.Numeral

/-!
# Letters, marks and numerals

The general categories that decide which characters a name may hold. ASCII is answered directly
and the rest of the repertoire from the range tables.

## Main definitions

* `Text.isLetter`, `Text.isMark`, `Text.isNumeral`: the general categories `L`, `M` and `N`.
-/

namespace XmlHarvest.Text

namespace Category

/-- Whether a code point lies in one of the closed ranges. -/
def inRanges (ranges : List (Nat × Nat)) (n : Nat) : Bool :=
  ranges.any fun (low, high) => low ≤ n && n ≤ high

end Category

/-- The general category `L`. -/
def isLetter (c : Char) : Bool :=
  if c.toNat < 0x80 then c.isAlpha else Category.inRanges Category.letterRanges c.toNat

/-- The general category `M`. -/
def isMark (c : Char) : Bool :=
  if c.toNat < 0x80 then false else Category.inRanges Category.markRanges c.toNat

/-- The general category `N`. -/
def isNumeral (c : Char) : Bool :=
  if c.toNat < 0x80 then c.isDigit else Category.inRanges Category.numeralRanges c.toNat

end XmlHarvest.Text
