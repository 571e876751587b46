import XmlHarvest.Template.Mark

/-!
# Contexts in a text

The contexts of a template can be found in its text without taking the template apart: the
innermost one that closes first is cut out, something is put in its place, and the search starts
again.

## Main definitions

* `Template.Context`: the inner text of a context and its place.
* `Template.extractContext`: the context that closes first.
* `Template.replaceContexts`: replace contexts until none is left.
-/

namespace XmlHarvest.Template

/-- A context: the text between its delimiters, the position of the opening one and the position
behind the closing one. -/
structure Context where
  inner : List Char
  start : Nat
  stop : Nat
deriving DecidableEq, Repr

/-- The place of the context that closes first. `openings` holds the positions of the delimiters
that are open, the innermost first, and `found` the place of a context that has closed already.
All delimiters must match, also those behind that context. -/
def firstClosed (openings : List Nat) (found : Option (Nat × Nat)) :
    List (Nat × Mark) → Except Mismatch (Option (Nat × Nat))
  | [] =>
    match openings.getLast? with
    | some position => .error ⟨position⟩
    | none => .ok found
  | (_, .char _) :: ms => firstClosed openings found ms
  | (position, .opening) :: ms => firstClosed (position :: openings) found ms
  | (position, .closing) :: ms =>
    match openings with
    | [] => .error ⟨position⟩
    | start :: openings => firstClosed openings (found.or (some (start, position + 1))) ms

/-- The part of a text between two positions. -/
def slice (start stop : Nat) (s : List Char) : List Char :=
  (Text.splitBytes (stop - start) (Text.splitBytes start s).2).1

/-- The context of a text that closes first. -/
def extractContext (s : List Char) : Except Mismatch (Option Context) := do
  match ← firstClosed [] none (marks 0 s) with
  | none => return none
  | some (start, stop) => return some ⟨slice (start + 1) (stop - 1) s, start, stop⟩

/-- A text with a context replaced. -/
def Context.replace (c : Context) (replacement s : List Char) : List Char :=
  (Text.splitBytes c.start s).1 ++ replacement ++ (Text.splitBytes c.stop s).2

/-- The contexts that are found one after the other, each being replaced before the next one is
looked for, and the text that is left. `rounds` bounds how many are looked for. -/
def replaceUpTo (replacement : Context → List Char) :
    (rounds : Nat) → List Char → Except Mismatch (List Context × List Char)
  | 0, s => .ok ([], s)
  | rounds + 1, s => do
    match ← extractContext s with
    | none => return ([], s)
    | some c =>
      let (found, left) ← replaceUpTo replacement rounds (c.replace (replacement c) s)
      return (c :: found, left)

/-- Replace contexts until none is left. A text has fewer contexts than characters, and a
replacement without delimiters takes one away. -/
def replaceContexts (replacement : Context → List Char) (s : List Char) :
    Except Mismatch (List Context × List Char) :=
  replaceUpTo replacement (s.length + 1) s

end XmlHarvest.Template
