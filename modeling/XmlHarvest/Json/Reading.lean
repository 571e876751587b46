import XmlHarvest.Json.Numeral.Reading
import XmlHarvest.Text.Blank

/-!
# Reading JSON

A reader takes from the front of a text the value that it expects. Each reader knows the type of its
value, so a text is never read further than the first fault, and a value of another type is a
fault that names both types.

## Main definitions

* `Json.Reading`: readers.
* `Json.string`, `Json.bool`, `Json.optional`, `Json.list`, `Json.entries`: readers of values.
* `Json.record`: the reader of a record with given fields.
* `Json.variant`: the reader of one of several names.
* `Json.parse`: read a whole text.

## Implementation notes

Readers of lists and records repeat a step that takes at least one character, so the number of
characters bounds the repetitions.
-/

namespace XmlHarvest.Json

/-- Readers of a value at the front of a text. -/
abbrev Reading (α : Type) := StateT (List Char) (Except Fault) α

/-- The next character that is not spacing; it is not taken. -/
def peek : Reading (Option Char) := do
  let s := (← get).dropWhile Text.isSpacing
  set s
  return s.head?

/-- Take one character. -/
def skip : Reading Unit :=
  modify List.tail

/-- How often a step can be repeated that takes a character each time. -/
def bound : Reading Nat := do
  return (← get).length + 1

/-! ## Strings -/

/-- Where the reading of a string stands. A surrogate is the first half of a pair, whose second half
must follow. -/
inductive StringState where
  | plain
  /-- Behind a backslash. -/
  | escape (surrogate : Option Nat)
  /-- In a code point: how many digits follow the next one, and the value so far. -/
  | code (left value : Nat) (surrogate : Option Nat)
  /-- Behind a first half, where a backslash must follow. -/
  | half (surrogate : Nat)

/-- What a letter behind a backslash stands for. -/
def escaped? (c : Char) : Option Char :=
  if c = '"' || c = '\\' || c = '/' then some c
  else if c = 'b' then some '\x08'
  else if c = 'f' then some '\x0c'
  else if c = 'n' then some '\n'
  else if c = 'r' then some '\r'
  else if c = 't' then some '\t'
  else none

/-- What 16 bits behind an escape amount to: a character, the first half of a pair, or a fault. -/
def unit (value : Nat) (surrogate : Option Nat) : Except Fault (Char ⊕ Nat) :=
  let isSecond : Bool := 0xDC00 ≤ value && value ≤ 0xDFFF
  match surrogate with
  | none =>
    if isSecond then .error .malformed
    else if 0xD800 ≤ value && value ≤ 0xDBFF then .ok (.inr value)
    else .ok (.inl (Char.ofNat value))
  | some first =>
    if isSecond then
      .ok (.inl (Char.ofNat (0x10000 + (first - 0xD800) * 0x400 + (value - 0xDC00))))
    else .error .malformed

/-- The characters of a string up to its closing quote, and what follows the quote. -/
def readString : StringState → List Char → Except Fault (List Char × List Char)
  | _, [] => .error .truncated
  | .plain, c :: r =>
    if c = '"' then .ok ([], r)
    else if c = '\\' then readString (.escape none) r
    else if c.toNat < 0x20 then .error .malformed
    else (readString .plain r).map fun (s, rest) => (c :: s, rest)
  | .half first, c :: r =>
    if c = '\\' then readString (.escape (some first)) r else .error .malformed
  | .escape surrogate, c :: r =>
    if c = 'u' then
      if Text.utf8Length r < 4 then .error .truncated else readString (.code 3 0 surrogate) r
    else
      match surrogate, escaped? c with
      | none, some d => (readString .plain r).map fun (s, rest) => (d :: s, rest)
      | _, _ => .error .malformed
  | .code left value surrogate, c :: r =>
    match Text.digitValue? c with
    | none => .error .malformed
    | some digit =>
      match left with
      | left + 1 => readString (.code left (16 * value + digit) surrogate) r
      | 0 =>
        match unit (16 * value + digit) surrogate with
        | .error e => .error e
        | .ok (.inl d) => (readString .plain r).map fun (s, rest) => (d :: s, rest)
        | .ok (.inr first) => readString (.half first) r

/-- The rest of a string whose opening quote has been taken. -/
def stringBody : Reading String := do
  let (s, rest) ← readString .plain (← get)
  set rest
  return String.ofList s

/-! ## Words and unexpected values -/

/-- Take the given letters. -/
def word : List Char → Reading Unit
  | [] => pure ()
  | c :: r => do
    match ← get with
    | [] => throw .truncated
    | d :: rest =>
      set rest
      if c = d then word r else throw .malformed

/-- The value that comes next, which is not of the expected type. A simple value is read to its
end first. -/
def unexpected : Reading Unexpected := do
  match ← peek with
  | some 'n' => do
    word ['n', 'u', 'l', 'l']
    return .null
  | some 't' => do
    word ['t', 'r', 'u', 'e']
    return .bool true
  | some 'f' => do
    word ['f', 'a', 'l', 's', 'e']
    return .bool false
  | some '"' => do
    skip
    return .string (← stringBody)
  | some '[' => return .array
  | some '\x7b' => return .object
  | some '-' => do
    skip
    let (n, rest) ← readNumeral true (← get)
    set rest
    return .number n
  | some c =>
    if c.isDigit then do
      let (n, rest) ← readNumeral false (← get)
      set rest
      return .number n
    else throw .malformed
  | none => throw .malformed

/-- Refuse the value that comes next. -/
def refuse {α : Type} (expected : String) : Reading α := do
  throw (invalidType (← unexpected) expected)

/-- The next character that is not spacing; there must be one. -/
def peekValue : Reading Char := do
  match ← peek with
  | some c => return c
  | none => throw .truncated

/-! ## Values -/

/-- A string. -/
def string : Reading String := do
  if (← peekValue) = '"' then do
    skip
    stringBody
  else refuse "a string"

/-- A truth value. -/
def bool : Reading Bool := do
  match ← peekValue with
  | 't' => do
    word ['t', 'r', 'u', 'e']
    return true
  | 'f' => do
    word ['f', 'a', 'l', 's', 'e']
    return false
  | _ => refuse "a boolean"

/-- The word `null`. -/
def null : Reading Unit := do
  if (← peekValue) = 'n' then word ['n', 'u', 'l', 'l'] else refuse "unit"

/-- A value, or the word `null` for none. -/
def optional {α : Type} (value : Reading α) : Reading (Option α) := do
  if (← peek) = some 'n' then do
    word ['n', 'u', 'l', 'l']
    return none
  else return some (← value)

/-! ## Lists -/

/-- Whether another item of a list follows. Its opening bracket or the item before has been
taken. -/
def moreItems (first : Bool) : Reading Bool := do
  match ← peek with
  | none => throw .truncated
  | some ']' => return false
  | some c =>
    if first then return true
    else if c = ',' then do
      skip
      match ← peek with
      | none => throw .truncated
      | some ']' => throw .malformed
      | some _ => return true
    else throw .malformed

/-- The end of a list. -/
def closeList : Reading Unit := do
  match ← peek with
  | none => throw .truncated
  | some ']' => skip
  | some _ => throw .malformed

/-- The items of a list up to its closing bracket. -/
def items {α : Type} (item : Reading α) : (rounds : Nat) → (first : Bool) → Reading (List α)
  | 0, _ => throw .truncated
  | rounds + 1, first => do
    if ← moreItems first then do
      let a ← item
      let as ← items item rounds false
      return a :: as
    else return []

/-- A list. -/
def list {α : Type} (item : Reading α) : Reading (List α) := do
  if (← peekValue) = '[' then do
    skip
    let as ← items item (← bound) true
    closeList
    return as
  else refuse "a sequence"

/-! ## Maps -/

/-- Whether another name follows in a map, up to its opening quote. -/
def moreNames (first : Bool) : Reading Bool := do
  match ← peek with
  | none => throw .truncated
  | some '\x7d' => return false
  | some c =>
    if first then
      if c = '"' then return true else throw .malformed
    else if c = ',' then do
      skip
      match ← peek with
      | none => throw .truncated
      | some '"' => return true
      | some _ => throw .malformed
    else throw .malformed

/-- A name in a map. -/
def name : Reading String := do
  skip
  stringBody

/-- The colon behind a name. -/
def colon : Reading Unit := do
  match ← peek with
  | none => throw .truncated
  | some ':' => skip
  | some _ => throw .malformed

/-- The entries of a map up to its closing brace. -/
def members {α : Type} (value : Reading α) :
    (rounds : Nat) → (first : Bool) → Reading (List (String × α))
  | 0, _ => throw .truncated
  | rounds + 1, first => do
    if ← moreNames first then do
      let n ← name
      colon
      let a ← value
      let as ← members value rounds false
      return (n, a) :: as
    else return []

/-- The entries of a map with any names, in order and as often as they are written. -/
def entries {α : Type} (value : Reading α) : Reading (List (String × α)) := do
  if (← peekValue) = '\x7b' then do
    skip
    let as ← members value (← bound) true
    skip
    return as
  else refuse "a map"

/-! ## Records -/

/-- How the values of a record of type `σ` are read: field by field, each being put into the record
read so far. -/
structure Fields (σ : Type) where
  /-- What the record is called when something else is found. -/
  expected : String
  /-- The names of the fields, in order. -/
  names : List String
  /-- Read the value of a field into a record. -/
  read : String → σ → Reading σ

/-- The fields of a record that is written with names; `seen` holds the names so far. -/
def namedFields {σ : Type} (f : Fields σ) :
    (rounds : Nat) → (seen : List String) → σ → Reading (List String × σ)
  | 0, _, _ => throw .truncated
  | rounds + 1, seen, record => do
    if ← moreNames seen.isEmpty then do
      let n ← name
      if n ∉ f.names then throw (unknownField n f.names)
      if n ∈ seen then throw (duplicateField n)
      colon
      let record ← f.read n record
      namedFields f rounds (n :: seen) record
    else return (seen, record)

/-- The fields of a record that is written as a list of its values in order. Fields at the end may
be left out. -/
def listedFields {σ : Type} (f : Fields σ) (first : Bool) :
    List String → σ → Reading (List String × σ)
  | [], record => return ([], record)
  | n :: ns, record => do
    if ← moreItems first then do
      let record ← f.read n record
      let (seen, record) ← listedFields f false ns record
      return (n :: seen, record)
    else return ([], record)

/-- A record: its fields with their names, or their values in order. Fields that are left out keep
the values of `initial`. Of the field `required`, if one is named, the value must be there. -/
def record {σ : Type} (f : Fields σ) (required : Option String) (initial : σ) : Reading σ := do
  let c ← peekValue
  if c = '[' then do
    skip
    let (seen, record) ← listedFields f true f.names initial
    if required.any (· ∉ seen) then
      throw (.data s!"invalid length 0, expected {f.expected} with {f.names.length} elements")
    closeList
    return record
  else if c = '\x7b' then do
    skip
    let (seen, record) ← namedFields f (← bound) [] initial
    match required with
    | some n => if n ∉ seen then throw (missingField n)
    | none => pure ()
    skip
    return record
  else refuse f.expected

/-! ## Names of variants -/

/-- One of several names, whose opening quote comes next. -/
def variantName {α : Type} (variants : List (String × α)) : Reading α := do
  let n ← name
  match variants.lookup n with
  | some a => return a
  | none => throw (unknownVariant n (variants.map Prod.fst))

/-- One of several names, as a string or as the only name of a map with the value `null`. -/
def variant {α : Type} (variants : List (String × α)) : Reading α := do
  let c ← peekValue
  if c = '"' then variantName variants
  else if c = '\x7b' then do
    skip
    if (← peekValue) ≠ '"' then throw .malformed
    let a ← variantName variants
    colon
    null
    match ← peek with
    | none => throw .truncated
    | some '\x7d' => skip
    | some _ => throw .malformed
    return a
  else throw .malformed

/-! ## Texts -/

/-- Read a whole text; nothing but spacing may follow the value. -/
def parse {α : Type} (value : Reading α) (text : String) : Except Fault α := do
  let (a, rest) ← value.run text.toList
  if rest.all Text.isSpacing then return a else throw .malformed

end XmlHarvest.Json
