import XmlHarvest.Text.Digits

/-!
# References

A reference stands for one character: by one of five names, or by its code point in decimal or
hexadecimal digits. Character data and attribute values allow slightly different spellings of a
code point.

## Main definitions

* `Markup.named?`: the five named characters.
* `Markup.resolve?`: what a reference in character data stands for.
* `Markup.unescape?`: an attribute value with its references resolved.
-/

namespace XmlHarvest.Markup

/-- The character that one of the five predefined names stands for. -/
def named? (name : List Char) : Option Char :=
  if name = ['l', 't'] then some '<'
  else if name = ['g', 't'] then some '>'
  else if name = ['a', 'm', 'p'] then some '&'
  else if name = ['q', 'u', 'o', 't'] then some '"'
  else if name = ['a', 'p', 'o', 's'] then some '\''
  else none

/-! ## Code points -/

/-- The value of a numeral with at least one digit. -/
def numeral? (base : Nat) (s : List Char) : Option Nat :=
  if s.isEmpty then none else Text.natOfDigits? base 0 s

/-- The value of a numeral that may carry a plus sign. -/
def signedNumeral? (base : Nat) : List Char → Option Nat
  | '+' :: s => numeral? base s
  | s => numeral? base s

/-- The character of a code point; surrogates and numbers beyond the code space have none. -/
def charOfCode? (n : Nat) : Option Char :=
  if h : n.isValidChar then some (Char.ofNatAux n h) else none

/-! ## Character data -/

/-- The character that the reference `&name;` in character data stands for. A code point may be
given with a plus sign, and `x` in either case announces hexadecimal digits. -/
def resolve? (name : List Char) : Option Char :=
  match named? name with
  | some c => some c
  | none =>
    match name with
    | '#' :: 'x' :: s | '#' :: 'X' :: s => (signedNumeral? 16 s).bind charOfCode?
    | '#' :: s => (signedNumeral? 10 s).bind charOfCode?
    | _ => none

/-! ## Attribute values -/

/-- The character that the reference `&name;` in an attribute value stands for. Signs, the letter
`X` and the code point zero are not allowed here. -/
def resolveInValue? (name : List Char) : Option Char :=
  match name with
  | '#' :: 'x' :: s => (numeral? 16 s).bind fun n => if n = 0 then none else charOfCode? n
  | '#' :: s => (numeral? 10 s).bind fun n => if n = 0 then none else charOfCode? n
  | _ => named? name

/-- The value of an attribute. Outside a reference a semicolon stands for itself; `pending` holds
the name of the reference that is being read, last character first. -/
def unescapeFrom? (pending : Option (List Char)) : List Char → Option (List Char)
  | [] => if pending.isSome then none else some []
  | c :: r =>
    match pending with
    | none =>
      if c = '&' then unescapeFrom? (some []) r
      else (unescapeFrom? none r).map (c :: ·)
    | some name =>
      if c = ';' then do
        let d ← resolveInValue? name.reverse
        let rest ← unescapeFrom? none r
        return d :: rest
      else if c = '&' then none
      else unescapeFrom? (some (c :: name)) r

/-- The value of an attribute: its text with the references resolved, if all of them name a
character. -/
def unescape? (s : List Char) : Option (List Char) :=
  unescapeFrom? none s

end XmlHarvest.Markup
