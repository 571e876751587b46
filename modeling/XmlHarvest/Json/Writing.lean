import XmlHarvest.Text.Digits

/-!
# Writing JSON

JSON text without any spacing. Strings escape the quote, the backslash and control characters, and
nothing else.

## Main definitions

* `Json.quote`: the text of a string.
* `Json.array`, `Json.object`: the text of a list or a record, given the texts of its parts.
-/

namespace XmlHarvest.Json

/-- A character inside of a string. -/
def quoteChar (c : Char) : List Char :=
  if c = '"' || c = '\\' then ['\\', c]
  else if c = '\x08' then ['\\', 'b']
  else if c = '\x0c' then ['\\', 'f']
  else if c = '\n' then ['\\', 'n']
  else if c = '\r' then ['\\', 'r']
  else if c = '\t' then ['\\', 't']
  else if c.toNat < 0x20 then ['\\', 'u'] ++ Text.hexPadded 4 c.toNat
  else [c]

/-- The text of a string. -/
def quote (s : String) : String :=
  String.ofList (['"'] ++ s.toList.flatMap quoteChar ++ ['"'])

/-- The text of a list, given the texts of its items. -/
def array (items : List String) : String :=
  "[" ++ String.intercalate "," items ++ "]"

/-- The text of a record, given its names and the texts of their values. -/
def object (members : List (String × String)) : String :=
  "\x7b" ++ String.intercalate "," (members.map fun (name, value) => quote name ++ ":" ++ value) ++
    "\x7d"

end XmlHarvest.Json
