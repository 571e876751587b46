import XmlHarvest.Text.Blank
import XmlHarvest.Text.Search

/-!
# Locales

Values are kept apart by the language they are in. Of a language tag only the language and the
script matter, so `de`, `de-DE` and `de_AT` are one locale while `sr-Latn` and `sr-Cyrl` are two.
A tag that does not begin with a language stands for the root locale, as does `und`.

## Main definitions

* `Locale`: the root, or a language with a script if one is given.
* `Locale.ofTag`: the locale of a language tag.
* `Locale.toText`: the tag of a locale.
* `Locale.le`: the order of locales.
-/

namespace XmlHarvest

/-- A locale. -/
inductive Locale where
  | root
  | tagged (language : String) (script : Option String)
deriving DecidableEq, Repr, Inhabited

namespace Locale

/-- Whether a subtag can be a language: two to eight ASCII letters. -/
def isLanguage (subtag : List Char) : Bool :=
  2 ≤ subtag.length && subtag.length ≤ 8 && subtag.all Char.isAlpha

/-- Whether a subtag can be a script: four ASCII letters. -/
def isScript (subtag : List Char) : Bool :=
  subtag.length == 4 && subtag.all Char.isAlpha

/-- A subtag in lower case. -/
def lowerCase (subtag : List Char) : String :=
  String.ofList (subtag.map Char.toLower)

/-- A subtag with a capital first letter and the others in lower case. -/
def titleCase : List Char → String
  | [] => ""
  | c :: r => String.ofList (c.toUpper :: r.map Char.toLower)

/-- The locale of a list of subtags: the first is the language and the second may be the script. -/
def ofSubtags : List (List Char) → Locale
  | [] => root
  | language :: rest =>
    if isLanguage language && lowerCase language ≠ "und" then
      tagged (lowerCase language) ((rest.head?.filter isScript).map titleCase)
    else root

/-- The locale of a language tag. Blanks around the tag do not count, and subtags are divided by
hyphens or underscores. -/
def ofTag (tag : String) : Locale :=
  ofSubtags (Text.fields (fun c => c = '-' || c = '_') (Text.trimChars tag.toList))

/-- The locale of a tag that may be missing. -/
def ofTag? (tag : Option String) : Locale :=
  tag.elim root ofTag

/-- The language. -/
def language? : Locale → Option String
  | root => none
  | tagged language _ => some language

/-- The script. -/
def script? : Locale → Option String
  | root => none
  | tagged _ script => script

/-- The tag of a locale; that of the root is `und`. -/
def toText : Locale → String
  | root => "und"
  | tagged language none => language
  | tagged language (some script) => language ++ "-" ++ script

/-- Missing texts come first. -/
def leOption : Option String → Option String → Bool
  | none, _ => true
  | some _, none => false
  | some a, some b => a ≤ b

/-- The order of locales: the root first, then by language, and locales of one language by
script. -/
def le (a b : Locale) : Bool :=
  if a.language? = b.language? then leOption a.script? b.script?
  else leOption a.language? b.language?

end Locale

end XmlHarvest
