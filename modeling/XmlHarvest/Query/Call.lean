import XmlHarvest.Number.Rounding
import XmlHarvest.Text.Search
import XmlHarvest.Query.Function
import XmlHarvest.Query.Value

/-!
# Function calls

What the core functions give for their arguments. A function that lacks its last argument looks at
the context node instead, where it has such a form.

## Main definitions

* `Query.Focus`: the context node, its position and the number of nodes it was taken from.
* `Query.substring`, `Query.translate`, `Query.langMatches`: functions on texts.
* `Query.call`: the value of a call.
-/

namespace XmlHarvest.Query

/-- The context node of an evaluation, its position among the nodes that are looked at, and their
number. -/
structure Focus where
  node : NodeId
  position : Nat
  size : Nat
deriving DecidableEq, Repr

/-! ## Texts -/

/-- The characters whose positions, counted from 1 on, are in the half-open interval from `first`
to `last`, the position of the first character being `position`. -/
def pick (first last : Float) (position : Nat) : List Char → List Char
  | [] => []
  | c :: r =>
    let p := Number.ofNat position
    if first ≤ p && p < last then c :: pick first last (position + 1) r
    else pick first last (position + 1) r

/-- The part of a text from a position on, of a given length if there is one. Both are rounded, and
the end is the sum of the rounded values. -/
def substring (s : List Char) (start : Float) (length? : Option Float) : List Char :=
  let first := Number.round start
  let last := length?.elim Number.infinity fun l => first + Number.round l
  pick first last 1 s

/-- A text with every character that occurs in `source` replaced by the character at the same place
of `target`, or dropped if `target` is too short. The first occurrence in `source` counts. -/
def translate (s source target : List Char) : List Char :=
  s.filterMap fun c =>
    match source.findIdx? (· = c) with
    | some i => target[i]?
    | none => some c

/-- Whether a language tag is the wanted one, or the wanted one with more subtags behind it. ASCII
letters match in either case. -/
def langMatches (lang wanted : String) : Bool :=
  let l := lang.toList.map Char.toLower
  let w := wanted.toList.map Char.toLower
  match Text.stripStart w l with
  | some [] => true
  | some (c :: _) => c = '-'
  | none => false

/-! ## Calls -/

variable (d : Document)

/-- The text of an argument, or the string-value of the context node. -/
def argumentText (focus : Focus) (v? : Option Value) : String :=
  match v? with
  | some v => v.toText d
  | none => d.stringValue focus.node

/-- The first node of an argument, or the context node. -/
def argumentNode (focus : Focus) (v? : Option Value) : Except Error (Option NodeId) :=
  match v? with
  | some v => v.toNodes.map List.head?
  | none => .ok (some focus.node)

/-- An argument that has to be there. -/
def required (v? : Option Value) : Except Error Value :=
  match v? with
  | some v => .ok v
  | none => .error .missingArgument

/-- The value of a call. -/
def call (f : Function) (arguments : List Value) (focus : Focus) : Except Error Value :=
  let textAt (i : Nat) : List Char := (argumentText d focus arguments[i]?).toList
  match f with
  | .last => .ok (.number (Number.ofNat focus.size))
  | .position => .ok (.number (Number.ofNat focus.position))
  | .count => do
    let ids ← (← required arguments[0]?).toNodes
    return .number (Number.ofNat ids.length)
  | .localName => do
    let i? ← argumentNode focus arguments[0]?
    return .text (i?.elim "" d.localName)
  | .namespaceUri => do
    let i? ← argumentNode focus arguments[0]?
    return .text ((i?.bind d.space?).getD "")
  | .name => do
    let i? ← argumentNode focus arguments[0]?
    return .text ((i?.bind d.name?).elim "" QName.qualified)
  | .string => .ok (.text (argumentText d focus arguments[0]?))
  | .concat => .ok (.text (String.join (arguments.map (Value.toText d))))
  | .startsWith => .ok (.boolean (Text.stripStart (textAt 1) (textAt 0)).isSome)
  | .endsWith => .ok (.boolean (Text.stripStart (textAt 1).reverse (textAt 0).reverse).isSome)
  | .contains => .ok (.boolean (Text.contains (textAt 1) (textAt 0)))
  | .substringBefore =>
    .ok (.text (String.ofList ((Text.split (textAt 1) (textAt 0)).elim [] Prod.fst)))
  | .substringAfter =>
    .ok (.text (String.ofList ((Text.split (textAt 1) (textAt 0)).elim [] Prod.snd)))
  | .substring => do
    let start ← required arguments[1]?
    return .text (String.ofList
      (substring (textAt 0) (start.toNumber d) (arguments[2]?.map (Value.toNumber d))))
  | .stringLength => .ok (.number (Number.ofNat (textAt 0).length))
  | .normalizeSpace => .ok (.text (String.ofList (Text.normalizeSpace (textAt 0))))
  | .translate => .ok (.text (String.ofList (translate (textAt 0) (textAt 1) (textAt 2))))
  | .boolean => do return .boolean (← required arguments[0]?).toBoolean
  | .not => do return .boolean (!(← required arguments[0]?).toBoolean)
  | .true => .ok (.boolean true)
  | .false => .ok (.boolean false)
  | .lang =>
    .ok (.boolean ((d.inheritedLang? focus.node).any fun l =>
      langMatches l (argumentText d focus arguments[0]?)))
  | .number => .ok (.number ((arguments[0]?.getD (Value.nodes [focus.node])).toNumber d))
  | .sum => do
    let ids ← (← required arguments[0]?).toNodes
    return .number (ids.foldl (fun acc i => acc + Number.ofText (d.stringValue i)) (-0.0))
  | .floor => do return .number (Number.floor ((← required arguments[0]?).toNumber d))
  | .ceiling => do return .number (Number.ceiling ((← required arguments[0]?).toNumber d))
  | .round => do return .number (Number.round ((← required arguments[0]?).toNumber d))

end XmlHarvest.Query
