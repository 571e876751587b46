import XmlHarvest.Template.Mark

/-!
# Phrases

What a template says: texts, placeholders and contexts, which are phrases in turn. A phrase is
given by its first part and the parts behind it.

A phrase is assembled from marks by reading them from the right. What stands behind a mark is
already a phrase, and a closing delimiter starts a new one that its opening delimiter takes in as a
context. A brace begins a placeholder if the text behind it goes on with a name and a closing brace.

## Main definitions

* `Template.Phrase`: the parts of a template.
* `Template.Phrase.prependChar`: a character in front of a phrase.
* `Template.Phrase.parse`: the phrase that a text spells.
-/

namespace XmlHarvest.Template

/-- The parts of a template, the first one in front of the others. -/
inductive Phrase where
  | nil
  | text (chars : List Char) (rest : Phrase)
  | placeholder (name : List Char) (rest : Phrase)
  | context (inner rest : Phrase)
deriving DecidableEq, Repr, Inhabited

/-- The characters of placeholder names: ASCII letters and digits, underscore and hyphen. -/
def isPlaceholderChar (c : Char) : Bool :=
  c.isAlphanum || c = '_' || c = '-'

/-- A placeholder behind its opening brace: a name that is not empty and a closing brace. The
result is the name and what follows the brace. -/
def placeholder? (s : List Char) : Option (List Char × List Char) :=
  let name := s.takeWhile isPlaceholderChar
  match s.dropWhile isPlaceholderChar with
  | '}' :: rest => if name.isEmpty then none else some (name, rest)
  | _ => none

namespace Phrase

/-- A text in front of a phrase that does not begin with a text; an empty text leaves no trace. -/
def prependText (chars : List Char) (p : Phrase) : Phrase :=
  if chars.isEmpty then p else .text chars p

/-- A character in front of a phrase. An opening brace becomes a placeholder with the beginning of
the text behind it if that completes one. -/
def prependChar (c : Char) : Phrase → Phrase
  | .text chars rest =>
    match if c = '\x7b' then placeholder? chars else none with
    | some (name, left) => .placeholder name (prependText left rest)
    | none => .text (c :: chars) rest
  | p => .text [c] p

/-- What a sequence of marks amounts to that may begin inside of contexts: the phrase up to the
first closing delimiter whose partner is missing, the positions of these delimiters with the phrases
behind each of them, the nearest first, and the first opening delimiter without a partner. -/
structure Partial where
  here : Phrase
  behind : List (Nat × Phrase)
  unclosed : Option Nat

/-- A mark in front of what is behind it. -/
def Partial.prepend (p : Partial) (position : Nat) : Mark → Partial
  | .char c => { p with here := prependChar c p.here }
  | .closing => { p with here := .nil, behind := (position, p.here) :: p.behind }
  | .opening =>
    match p.behind with
    | (_, rest) :: behind => { p with here := .context p.here rest, behind := behind }
    | [] => { p with unclosed := some position }

/-- What a sequence of marks amounts to. -/
def Partial.ofMarks : List (Nat × Mark) → Partial
  | [] => ⟨.nil, [], none⟩
  | (position, m) :: ms => (Partial.ofMarks ms).prepend position m

/-- The phrase that a sequence of marks spells. A closing delimiter without a partner is reported
before an opening one, and of several the first. -/
def ofMarks (ms : List (Nat × Mark)) : Except Mismatch Phrase :=
  let p := Partial.ofMarks ms
  match p.behind, p.unclosed with
  | (position, _) :: _, _ => .error ⟨position⟩
  | [], some position => .error ⟨position⟩
  | [], none => .ok p.here

/-- The phrase that a text spells. -/
def parse (s : List Char) : Except Mismatch Phrase :=
  ofMarks (marks 0 s)

end Phrase

end XmlHarvest.Template
