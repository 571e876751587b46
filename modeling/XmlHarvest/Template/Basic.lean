import XmlHarvest.Locale
import XmlHarvest.OrderedMap
import XmlHarvest.Template.Phrase

/-!
# Templates

A template is a text with placeholders in braces and contexts in angle brackets. Rendered for a
locale, every placeholder is replaced by the value of its variable. A context is left out as a
whole when a placeholder directly inside it has no value or an empty one; a placeholder outside of
all contexts must have a value, or the template does not render.

## Main definitions

* `ResolvedVariable`: the values of a variable in each locale.
* `Template`: a text and the phrase that it spells.
* `Template.parse`: the template of a text.
* `Template.names`: the names of the placeholders.
* `Template.renderLocale`, `Template.render`: the text for one locale, and for all.
-/

namespace XmlHarvest

/-- The values of a variable in each locale, locales in order of first appearance. -/
abbrev ResolvedVariable := OrderedMap Locale (List String)

/-- Variables by name. -/
abbrev Variables := OrderedMap String ResolvedVariable

namespace Template

/-! ## Names -/

/-- The names of the placeholders in a text, from left to right, as often as they occur. -/
def placeholderNames : List Char → List String
  | [] => []
  | c :: r =>
    match if c = '\x7b' then placeholder? r else none with
    | some (name, _) => String.ofList name :: placeholderNames r
    | none => placeholderNames r

/-- The names of the placeholders in a text, each once and in order of code points. -/
def variableNames (source : String) : List String :=
  (placeholderNames source.toList).eraseDups.mergeSort fun a b => a ≤ b

end Template

/-- A text whose contexts are balanced, and the phrase that it spells. -/
structure Template where
  source : String
  phrase : Template.Phrase
  phrase_eq : Template.Phrase.parse source.toList = .ok phrase

namespace Template

/-- The template of a text. -/
def parse (source : String) : Except Mismatch Template :=
  match h : Phrase.parse source.toList with
  | .ok phrase => .ok ⟨source, phrase, h⟩
  | .error e => .error e

/-- The names of the placeholders, each once, in order of first appearance. -/
def names (t : Template) : List String :=
  (placeholderNames t.source.toList).eraseDups

/-- Whether there are no placeholders. -/
def isConstant (t : Template) : Bool :=
  t.names.isEmpty

/-! ## Rendering -/

/-- The value of a variable for a locale: the first of its values there, or else the first of the
values that it has in the first locale with any. -/
def lookup (vs : Variables) (locale : Locale) (name : String) : Option String := do
  let found ← vs.get? name
  let values ← ((found.get? locale).filter fun values => !values.isEmpty).or
    (found.values.find? fun values => !values.isEmpty)
  values.head?

namespace Phrase

/-- The text of the phrase in a context, given the values of variables; `none` if the context is
left out. -/
def renderContext (value? : String → Option String) : Phrase → Option String
  | .nil => some ""
  | .text chars rest => (rest.renderContext value?).map (String.ofList chars ++ ·)
  | .placeholder name rest =>
    match (value? (String.ofList name)).filter fun v => v ≠ "" with
    | some v => (rest.renderContext value?).map (v ++ ·)
    | none => none
  | .context inner rest =>
    (rest.renderContext value?).map ((inner.renderContext value?).getD "" ++ ·)

/-- The text of a phrase outside of all contexts; `none` if a placeholder has no value. -/
def render (value? : String → Option String) : Phrase → Option String
  | .nil => some ""
  | .text chars rest => (rest.render value?).map (String.ofList chars ++ ·)
  | .placeholder name rest =>
    match value? (String.ofList name) with
    | some v => (rest.render value?).map (v ++ ·)
    | none => none
  | .context inner rest => (rest.render value?).map ((inner.renderContext value?).getD "" ++ ·)

end Phrase

/-- The text of a template for a locale. -/
def renderLocale (t : Template) (vs : Variables) (locale : Locale) : Option String :=
  t.phrase.render (lookup vs locale)

/-- The locales that a template is rendered for: those in which a variable that it names has an
entry, in order of first appearance. A template without placeholders is rendered for the root. -/
def locales (t : Template) (vs : Variables) : List Locale :=
  if t.isConstant then [.root]
  else ((t.names.filterMap vs.get?).flatMap OrderedMap.keys).eraseDups

/-- The texts of a template for all its locales. Locales for which it does not render are left
out. -/
def render (t : Template) (vs : Variables) : OrderedMap Locale String :=
  OrderedMap.ofList ((t.locales vs).filterMap fun locale =>
    (t.renderLocale vs locale).map fun text => (locale, text))

end Template

end XmlHarvest
