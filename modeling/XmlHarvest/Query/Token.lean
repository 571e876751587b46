import XmlHarvest.Text.Category
import XmlHarvest.Text.Search
import XmlHarvest.Text.Blank
import XmlHarvest.Query.Expr

/-!
# Tokens of expressions

An expression is cut into tokens: numbers, quoted literals, names, variables and symbols, with
spacing between them where there is any. Names are as long as possible, so `a-b` is one name and
`a -b` is a name, a minus and a name. Whether a name is an operator, an axis, a function or a node
test is not decided here.

## Main definitions

* `Query.isNameStart`, `Query.isNameChar`: the characters of names.
* `Query.Symbol`: the symbols.
* `Query.Token`: the tokens.
* `Query.Token.first?`: the token at the start of a text.
* `Query.tokens?`: the tokens of a text.
-/

namespace XmlHarvest.Query

open Text

/-- The characters that a name may begin with. -/
def isNameStart (c : Char) : Bool :=
  isLetter c || c == '_'

/-- The characters that a name may go on with. -/
def isNameChar (c : Char) : Bool :=
  isLetter c || isNumeral c || c == '_' || c == '-' || c == '.' || isMark c

/-- The symbols of expressions. -/
inductive Symbol where
  | openParen
  | closeParen
  | openBracket
  | closeBracket
  | comma
  | bar
  | plus
  | minus
  | star
  | doubleSlash
  | slash
  | at
  | dotDot
  | dot
  | doubleColon
  | notEqual
  | equal
  | lessEqual
  | less
  | greaterEqual
  | greater
deriving DecidableEq, Repr

/-- How a symbol is written. -/
def Symbol.spell : Symbol → List Char
  | .openParen => ['(']
  | .closeParen => [')']
  | .openBracket => ['[']
  | .closeBracket => [']']
  | .comma => [',']
  | .bar => ['|']
  | .plus => ['+']
  | .minus => ['-']
  | .star => ['*']
  | .doubleSlash => ['/', '/']
  | .slash => ['/']
  | .at => ['@']
  | .dotDot => ['.', '.']
  | .dot => ['.']
  | .doubleColon => [':', ':']
  | .notEqual => ['!', '=']
  | .equal => ['=']
  | .lessEqual => ['<', '=']
  | .less => ['<']
  | .greaterEqual => ['>', '=']
  | .greater => ['>']

/-- Every symbol; one that begins with another one stands before it. -/
def Symbol.all : List Symbol :=
  [.openParen, .closeParen, .openBracket, .closeBracket, .comma, .bar, .plus, .minus, .star,
    .doubleSlash, .slash, .at, .dotDot, .dot, .doubleColon, .notEqual, .equal, .lessEqual, .less,
    .greaterEqual, .greater]

/-- The longest symbol at the start of a text, and what follows it. -/
def Symbol.first? (s : List Char) : Option (Symbol × List Char) :=
  Symbol.all.findSome? fun symbol => (stripStart symbol.spell s).map fun rest => (symbol, rest)

/-- The tokens of expressions. -/
inductive Token where
  | number (digits : List Char)
  | literal (text : String)
  | reference (name : WrittenName)
  | name (name : WrittenName)
  /-- A qualifier with `:*` behind it. -/
  | wildcard (qualifier : String)
  | symbol (s : Symbol)
deriving DecidableEq, Repr

/-! ## Cutting off one token -/

/-- The number at the start of a text: digits with an optional fraction, or a point with digits
behind it. -/
def firstNumber? (s : List Char) : Option (List Char × List Char) :=
  let whole := s.takeWhile Char.isDigit
  match s.dropWhile Char.isDigit with
  | '.' :: r =>
    let fraction := r.takeWhile Char.isDigit
    if whole.isEmpty && fraction.isEmpty then none
    else some (whole ++ '.' :: fraction, r.dropWhile Char.isDigit)
  | rest => if whole.isEmpty then none else some (whole, rest)

/-- The unqualified name at the start of a text. -/
def firstPart? : List Char → Option (List Char × List Char)
  | [] => none
  | c :: r =>
    if isNameStart c then some (c :: r.takeWhile isNameChar, r.dropWhile isNameChar) else none

/-- The name at the start of a text, qualified if a colon and another name follow directly. -/
def firstName? (s : List Char) : Option (WrittenName × List Char) :=
  match firstPart? s with
  | none => none
  | some (a, ':' :: r) =>
    match firstPart? r with
    | some (b, rest) => some (⟨some (String.ofList a), String.ofList b⟩, rest)
    | none => some (⟨none, String.ofList a⟩, ':' :: r)
  | some (a, rest) => some (⟨none, String.ofList a⟩, rest)

/-- The token at the start of a text, and what follows it. -/
def Token.first? (s : List Char) : Option (Token × List Char) :=
  match firstNumber? s with
  | some (digits, rest) => some (.number digits, rest)
  | none =>
    match firstName? s with
    | some (⟨none, a⟩, ':' :: '*' :: rest) => some (.wildcard a, rest)
    | some (n, rest) => some (.name n, rest)
    | none =>
      match s with
      | '$' :: r => (firstName? r).map fun (n, rest) => (.reference n, rest)
      | '"' :: r =>
        (splitAt (· = '"') r).map fun (text, _, rest) => (.literal (String.ofList text), rest)
      | '\'' :: r =>
        (splitAt (· = '\'') r).map fun (text, _, rest) => (.literal (String.ofList text), rest)
      | _ => (Symbol.first? s).map fun (x, rest) => (.symbol x, rest)

/-! ## What is left is shorter -/

theorem length_dropWhile_lt {α : Type} {p : α → Bool} {s rest : List α}
    (h : s.dropWhile p = rest) : rest.length ≤ s.length := by
  subst h
  exact (List.dropWhile_sublist p).length_le

theorem length_lt_of_firstNumber? {s digits rest : List Char}
    (h : firstNumber? s = some (digits, rest)) : rest.length < s.length := by
  have hs : s.takeWhile Char.isDigit ++ s.dropWhile Char.isDigit = s :=
    List.takeWhile_append_dropWhile
  have hlen := congrArg List.length hs
  simp only [List.length_append] at hlen
  unfold firstNumber? at h
  simp only at h
  split at h
  · rename_i r hr
    split at h
    · simp at h
    · simp only [Option.some.injEq, Prod.mk.injEq] at h
      obtain ⟨-, rfl⟩ := h
      have := length_dropWhile_lt (p := Char.isDigit) (s := r) rfl
      rw [hr] at hlen
      simp only [List.length_cons] at hlen
      omega
  · rename_i rest' hr
    split at h
    · simp at h
    · rename_i hw
      simp only [Option.some.injEq, Prod.mk.injEq] at h
      obtain ⟨-, rfl⟩ := h
      have : 0 < (s.takeWhile Char.isDigit).length := by
        rw [List.length_pos_iff]
        simpa using hw
      omega

theorem length_lt_of_firstPart? {s name rest : List Char}
    (h : firstPart? s = some (name, rest)) : rest.length < s.length := by
  cases s with
  | nil => simp [firstPart?] at h
  | cons c r =>
    simp only [firstPart?] at h
    split at h
    · simp only [Option.some.injEq, Prod.mk.injEq] at h
      obtain ⟨-, rfl⟩ := h
      have := length_dropWhile_lt (p := isNameChar) (s := r) rfl
      simp only [List.length_cons]
      omega
    · simp at h

theorem length_lt_of_firstName? {s rest : List Char} {name : WrittenName}
    (h : firstName? s = some (name, rest)) : rest.length < s.length := by
  unfold firstName? at h
  split at h
  · simp at h
  · rename_i a r ha
    have h1 := length_lt_of_firstPart? ha
    split at h
    · rename_i b rest' hb
      have h2 := length_lt_of_firstPart? hb
      simp only [Option.some.injEq, Prod.mk.injEq] at h
      obtain ⟨-, rfl⟩ := h
      simp only [List.length_cons] at h1
      omega
    · simp only [Option.some.injEq, Prod.mk.injEq] at h
      obtain ⟨-, rfl⟩ := h
      exact h1
  · rename_i a rest' ha
    simp only [Option.some.injEq, Prod.mk.injEq] at h
    obtain ⟨-, rfl⟩ := h
    exact length_lt_of_firstPart? ha

theorem spell_ne_nil (s : Symbol) : s.spell ≠ [] := by
  cases s <;> simp [Symbol.spell]

theorem length_lt_of_symbol {s rest : List Char} {symbol : Symbol}
    (h : Symbol.first? s = some (symbol, rest)) : rest.length < s.length := by
  obtain ⟨x, -, hx⟩ := List.exists_of_findSome?_eq_some h
  simp only [Option.map_eq_some_iff, Prod.mk.injEq] at hx
  obtain ⟨r, hr, rfl, rfl⟩ := hx
  have h1 := congrArg List.length (eq_append_of_stripStart hr)
  have h2 : 0 < x.spell.length := List.length_pos_iff.2 (spell_ne_nil x)
  simp only [List.length_append] at h1
  omega

/-- What follows a token is shorter than the text. -/
theorem Token.length_lt_of_first? {s rest : List Char} {t : Token}
    (h : Token.first? s = some (t, rest)) : rest.length < s.length := by
  unfold Token.first? at h
  split at h
  · rename_i digits r hd
    simp only [Option.some.injEq, Prod.mk.injEq] at h
    obtain ⟨-, rfl⟩ := h
    exact length_lt_of_firstNumber? hd
  · split at h
    · rename_i a r ha
      simp only [Option.some.injEq, Prod.mk.injEq] at h
      obtain ⟨-, rfl⟩ := h
      have := length_lt_of_firstName? ha
      simp only [List.length_cons] at this
      omega
    · rename_i name r ha hn
      simp only [Option.some.injEq, Prod.mk.injEq] at h
      obtain ⟨-, rfl⟩ := h
      exact length_lt_of_firstName? hn
    · split at h
      · simp only [Option.map_eq_some_iff, Prod.mk.injEq] at h
        obtain ⟨⟨n, r⟩, hr, -, rfl⟩ := h
        have := length_lt_of_firstName? hr
        simp only [List.length_cons]
        omega
      · simp only [Option.map_eq_some_iff, Prod.mk.injEq] at h
        obtain ⟨⟨a, c, r⟩, hr, -, rfl⟩ := h
        have := congrArg List.length (eq_append_of_splitAt hr)
        simp only [List.length_append, List.length_cons] at *
        omega
      · simp only [Option.map_eq_some_iff, Prod.mk.injEq] at h
        obtain ⟨⟨a, c, r⟩, hr, -, rfl⟩ := h
        have := congrArg List.length (eq_append_of_splitAt hr)
        simp only [List.length_append, List.length_cons] at *
        omega
      · simp only [Option.map_eq_some_iff, Prod.mk.injEq] at h
        obtain ⟨⟨a, r⟩, hr, -, rfl⟩ := h
        exact length_lt_of_symbol hr

/-! ## All tokens -/

/-- The tokens of a text, in order; `none` if some part of it is no token. -/
def tokens? (s : List Char) : Option (List Token) :=
  match _h : s.dropWhile isSpacing with
  | [] => some []
  | c :: r =>
    match _ht : Token.first? (c :: r) with
    | none => none
    | some (t, rest) => (tokens? rest).map (t :: ·)
termination_by s.length
decreasing_by
  have h1 := Token.length_lt_of_first? _ht
  have h2 := length_dropWhile_lt _h
  omega

end XmlHarvest.Query
