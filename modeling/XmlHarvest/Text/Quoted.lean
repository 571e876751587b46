import XmlHarvest.Text.Category
import XmlHarvest.Text.Category.Hidden
import XmlHarvest.Text.Digits

/-!
# Quoted text

The form in which a text is shown inside a diagnostic: between double quotes, with every
character that would not be seen as itself spelled by an escape.

## Main definitions

* `Text.quote`: the quoted form of a string.
-/

namespace XmlHarvest.Text

/-- Whether quoting spells a character by its code point. -/
def isHidden (c : Char) : Bool :=
  if c.toNat < 0x80 then c.toNat < 0x20 || c.toNat == 0x7F
  else Category.inRanges Category.hiddenRanges c.toNat

/-- A character inside quotes: NUL, tab, line feed and carriage return have escapes of their own,
the backslash and the double quote take a backslash, and any other hidden character is given by
its code point. -/
def quoteChar (c : Char) : List Char :=
  if c == '\x00' then ['\\', '0']
  else if c == '\t' then ['\\', 't']
  else if c == '\n' then ['\\', 'n']
  else if c == '\r' then ['\\', 'r']
  else if c == '\\' || c == '"' then ['\\', c]
  else if isHidden c then ['\\', 'u', '\x7b'] ++ hexDigits c.toNat ++ ['\x7d']
  else [c]

/-- The quoted form of a string. -/
def quote (s : String) : String :=
  String.ofList (['"'] ++ s.toList.flatMap quoteChar ++ ['"'])

end XmlHarvest.Text
