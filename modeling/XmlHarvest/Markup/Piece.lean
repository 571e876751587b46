import XmlHarvest.Text.Blank
import XmlHarvest.Text.Search

/-!
# Pieces of markup

A document text is cut into pieces before anything is read from it: runs of text, references and
the constructs between angle brackets. The cut loses nothing. Every piece knows how it is spelled
and the pieces of a text, spelled one after the other, are the text again, which is also how
every piece gets its offset.

## Main definitions

* `Markup.Piece`: one piece.
* `Markup.Piece.spell`: the text of a piece.
* `Markup.pieces`: the pieces of a text.
* `Markup.locate`: pieces with the offsets at which they begin.

## Main results

* `Markup.flatMap_spell_pieces`: the pieces of a text spell the text.
-/

namespace XmlHarvest.Markup

open Text

/-- A piece of a document text. The last piece is `broken` if what is left at that point cannot be
cut further. -/
inductive Piece where
  | text (chars : List Char)
  | reference (name : List Char)
  | opening (body : List Char)
  | closing (body : List Char)
  | comment (body : List Char)
  | characterData (body : List Char)
  | instruction (body : List Char)
  | doctype (body : List Char)
  | broken (rest : List Char)
deriving DecidableEq, Repr

namespace Piece

/-- The text of a piece. -/
def spell : Piece → List Char
  | text chars => chars
  | reference name => '&' :: (name ++ [';'])
  | opening body => '<' :: (body ++ ['>'])
  | closing body => '<' :: '/' :: (body ++ ['>'])
  | comment body => ['<', '!', '-', '-'] ++ body ++ ['-', '-', '>']
  | characterData body => ['<', '!', '[', 'C', 'D', 'A', 'T', 'A', '['] ++ body ++ [']', ']', '>']
  | instruction body => ['<', '?'] ++ body ++ ['?', '>']
  | doctype body => '<' :: '!' :: (body ++ ['>'])
  | broken rest => rest

/-! ## Where a construct ends -/

/-- The quote that is open behind a character, given the one that was open before it. -/
def quoteAfter (quote : Option Char) (c : Char) : Option Char :=
  match quote with
  | none => if c = '"' || c = '\'' then some c else none
  | some q => if c = q then none else some q

/-- The parts before and behind the first `>` outside quotes. -/
def splitTag (quote : Option Char) : List Char → Option (List Char × List Char)
  | [] => none
  | c :: r =>
    if quote = none ∧ c = '>' then some ([], r)
    else (splitTag (quoteAfter quote c) r).map fun (body, rest) => (c :: body, rest)

/-- Where a position in a document type declaration stands. -/
inductive DoctypeState where
  /-- Before the declarations in square brackets, with the quote that is open. -/
  | before (quote : Option Char)
  /-- Between the declarations in square brackets. -/
  | subset
  /-- In such a declaration, which runs to the next `>`. -/
  | declaration
  /-- In such a declaration, whose quotes hide a `>`, with the quote that is open. -/
  | literals (quote : Option Char)
  /-- In a comment or an instruction, which ends with `close`, with `ahead` characters of its
  opening still to come. -/
  | enclosed (ahead : Nat) (close : List Char)
  /-- Behind the declarations in square brackets. -/
  | behind

namespace DoctypeState

/-- The state at the beginning of a declaration in square brackets, given the text behind its `<`.
Only entities, attribute lists and notations are declared with literals. -/
def ofDeclaration (r : List Char) : DoctypeState :=
  let starts (word : String) : Bool := (stripStart word.toList r).isSome
  if starts "!--" then .enclosed 3 ['-', '-', '>']
  else if starts "?" then .enclosed 1 ['?', '>']
  else if starts "!ENTITY" || starts "!ATTLIST" || starts "!NOTATION" then .literals none
  else .declaration

/-- The state behind the character `c`, which `r` follows; `none` if it ends the document type
declaration. -/
def next? (state : DoctypeState) (c : Char) (r : List Char) : Option DoctypeState :=
  match state with
  | before none =>
    if c = '>' then none else some (if c = '[' then subset else before (quoteAfter none c))
  | before quote => some (before (quoteAfter quote c))
  | subset => some (if c = ']' then behind else if c = '<' then ofDeclaration r else subset)
  | declaration => some (if c = '>' then subset else declaration)
  | literals quote =>
    some (if quote = none ∧ c = '>' then subset else literals (quoteAfter quote c))
  | enclosed (ahead + 1) close => some (enclosed ahead close)
  | enclosed 0 close =>
    some (if (stripStart close (c :: r)).isSome then declaration else enclosed 0 close)
  | behind => if c = '>' then none else some behind

/-- Only a `>` ends a document type declaration. -/
theorem eq_of_next?_eq_none {state : DoctypeState} {c : Char} {r : List Char}
    (h : state.next? c r = none) : c = '>' := by
  unfold next? at h
  split at h <;> simp_all

end DoctypeState

/-- The parts before and behind the `>` that ends a document type declaration. Literals before the
square brackets, and declarations, comments and instructions in them, are passed over whole. -/
def splitDoctype (state : DoctypeState) : List Char → Option (List Char × List Char)
  | [] => none
  | c :: r =>
    match state.next? c r with
    | none => some ([], r)
    | some next => (splitDoctype next r).map fun (body, rest) => (c :: body, rest)

/-- Whether a body starts with the word `DOCTYPE`, in either case, and says more than that. -/
def isDoctype (body : List Char) : Bool :=
  (body.take 7).map Char.toUpper == ['D', 'O', 'C', 'T', 'Y', 'P', 'E'] &&
    (body.drop 7).any fun c => !isSpacing c

/-! ## The first piece -/

/-- The piece that begins with `<!`, given the text behind these two characters. -/
def bang (r : List Char) : Option (Piece × List Char) :=
  match stripStart ['-', '-'] r with
  | some inner => (split ['-', '-', '>'] inner).map fun (body, rest) => (comment body, rest)
  | none =>
    match stripStart ['[', 'C', 'D', 'A', 'T', 'A', '['] r with
    | some inner => (split [']', ']', '>'] inner).map fun (body, rest) => (characterData body, rest)
    | none =>
      (splitDoctype (.before none) r).bind fun (body, rest) =>
        if isDoctype body then some (doctype body, rest) else none

/-- The piece that begins with `<`, given the text behind that character. -/
def angle : List Char → Option (Piece × List Char)
  | '!' :: r => bang r
  | '/' :: r => (splitTag none r).map fun (body, rest) => (closing body, rest)
  | '?' :: r =>
    if (stripStart ['>'] r).isSome then none
    else (split ['?', '>'] r).map fun (body, rest) => (instruction body, rest)
  | r => (splitTag none r).map fun (body, rest) => (opening body, rest)

/-- The reference that begins with `&`, given the text behind that character. It runs to a
semicolon before which there is neither `&` nor `<`. -/
def ampersand (r : List Char) : Option (Piece × List Char) :=
  match splitAt (fun c => c = ';' || c = '&' || c = '<') r with
  | some (name, ';', rest) => some (reference name, rest)
  | _ => none

/-- The piece at the start of a text whose first character is `c`, and what follows it; `none` if
there is no such piece. -/
def first? (c : Char) (r : List Char) : Option (Piece × List Char) :=
  if c = '<' then angle r
  else if c = '&' then ampersand r
  else
    let isPlain (d : Char) : Bool := !(d = '<' || d = '&')
    some (text (c :: r.takeWhile isPlain), r.dropWhile isPlain)

/-! ## No piece loses a character -/

theorem eq_append_of_splitTag {quote : Option Char} {s body rest : List Char}
    (h : splitTag quote s = some (body, rest)) : s = body ++ '>' :: rest := by
  induction s generalizing quote body with
  | nil => simp [splitTag] at h
  | cons c r ih =>
    simp only [splitTag] at h
    split at h
    · rename_i hc
      simp only [Option.some.injEq, Prod.mk.injEq] at h
      simp [← h.1, ← h.2, hc.2]
    · simp only [Option.map_eq_some_iff, Prod.mk.injEq] at h
      obtain ⟨⟨b, t⟩, hb, rfl, rfl⟩ := h
      simp [ih hb]

theorem eq_append_of_splitDoctype {state : DoctypeState} {s body rest : List Char}
    (h : splitDoctype state s = some (body, rest)) : s = body ++ '>' :: rest := by
  induction s generalizing state body with
  | nil => simp [splitDoctype] at h
  | cons c r ih =>
    simp only [splitDoctype] at h
    split at h
    · rename_i hc
      simp only [Option.some.injEq, Prod.mk.injEq] at h
      simp [← h.1, ← h.2, DoctypeState.eq_of_next?_eq_none hc]
    · simp only [Option.map_eq_some_iff, Prod.mk.injEq] at h
      obtain ⟨⟨b, t⟩, hb, rfl, rfl⟩ := h
      simp [ih hb]

theorem spell_of_bang {r rest : List Char} {p : Piece} (h : bang r = some (p, rest)) :
    ∃ t, p.spell = '<' :: '!' :: t ∧ r = t ++ rest := by
  simp only [bang] at h
  split at h
  · rename_i inner hi
    simp only [Option.map_eq_some_iff, Prod.mk.injEq] at h
    obtain ⟨⟨b, t⟩, hb, rfl, rfl⟩ := h
    exact ⟨_, rfl, by simp [eq_append_of_stripStart hi, eq_append_of_split hb]⟩
  · split at h
    · rename_i inner hi
      simp only [Option.map_eq_some_iff, Prod.mk.injEq] at h
      obtain ⟨⟨b, t⟩, hb, rfl, rfl⟩ := h
      exact ⟨_, rfl, by simp [eq_append_of_stripStart hi, eq_append_of_split hb]⟩
    · simp only [Option.bind_eq_some_iff] at h
      obtain ⟨⟨b, t⟩, hb, ht⟩ := h
      split at ht
      · simp only [Option.some.injEq, Prod.mk.injEq] at ht
        obtain ⟨rfl, rfl⟩ := ht
        exact ⟨_, rfl, by simp [eq_append_of_splitDoctype hb]⟩
      · simp at ht

theorem spell_of_angle {r rest : List Char} {p : Piece} (h : angle r = some (p, rest)) :
    ∃ t, p.spell = '<' :: t ∧ r = t ++ rest := by
  unfold angle at h
  split at h
  · obtain ⟨t, hp, ht⟩ := spell_of_bang h
    exact ⟨'!' :: t, hp, by simp [ht]⟩
  · simp only [Option.map_eq_some_iff, Prod.mk.injEq] at h
    obtain ⟨⟨b, t⟩, hb, rfl, rfl⟩ := h
    exact ⟨_, rfl, by simp [eq_append_of_splitTag hb]⟩
  · split at h
    · simp at h
    · simp only [Option.map_eq_some_iff, Prod.mk.injEq] at h
      obtain ⟨⟨b, t⟩, hb, rfl, rfl⟩ := h
      exact ⟨_, rfl, by simp [eq_append_of_split hb]⟩
  · simp only [Option.map_eq_some_iff, Prod.mk.injEq] at h
    obtain ⟨⟨b, t⟩, hb, rfl, rfl⟩ := h
    exact ⟨_, rfl, by simp [eq_append_of_splitTag hb]⟩

theorem spell_of_ampersand {r rest : List Char} {p : Piece}
    (h : ampersand r = some (p, rest)) : ∃ t, p.spell = '&' :: t ∧ r = t ++ rest := by
  unfold ampersand at h
  split at h
  · rename_i name t hs
    simp only [Option.some.injEq, Prod.mk.injEq] at h
    obtain ⟨rfl, rfl⟩ := h
    exact ⟨_, rfl, by simp [eq_append_of_splitAt hs]⟩
  · simp at h

/-- The first piece begins with the first character, and what follows it is the rest of the
text. -/
theorem spell_of_first? {c : Char} {r rest : List Char} {p : Piece}
    (h : first? c r = some (p, rest)) : ∃ t, p.spell = c :: t ∧ r = t ++ rest := by
  unfold first? at h
  split at h
  · rename_i hc
    exact hc ▸ spell_of_angle h
  · split at h
    · rename_i hc
      exact hc ▸ spell_of_ampersand h
    · simp only [Option.some.injEq, Prod.mk.injEq] at h
      obtain ⟨rfl, rfl⟩ := h
      exact ⟨_, rfl, by simp⟩

/-- What follows the first piece is shorter than the text. -/
theorem length_lt_of_first? {c : Char} {r rest : List Char} {p : Piece}
    (h : first? c r = some (p, rest)) : rest.length < (c :: r).length := by
  obtain ⟨t, -, rfl⟩ := spell_of_first? h
  simp only [List.length_cons, List.length_append]
  omega

end Piece

/-! ## All pieces -/

/-- The pieces of a text, in order. -/
def pieces : List Char → List Piece
  | [] => []
  | c :: r =>
    match _h : Piece.first? c r with
    | some (p, rest) => p :: pieces rest
    | none => [.broken (c :: r)]
termination_by s => s.length
decreasing_by exact Piece.length_lt_of_first? _h

/-- The pieces of a text spell the text. -/
theorem flatMap_spell_pieces (s : List Char) : (pieces s).flatMap Piece.spell = s := by
  fun_induction pieces s with
  | case1 => rfl
  | case2 c r p rest h ih =>
    obtain ⟨t, hp, rfl⟩ := Piece.spell_of_first? h
    simp [ih, hp]
  | case3 c r h => simp [Piece.spell]

/-- Pieces with the offsets at which they begin, the first one at `offset`. -/
def locate (offset : Nat) : List Piece → List (Nat × Piece)
  | [] => []
  | p :: ps => (offset, p) :: locate (offset + utf8Length p.spell) ps

end XmlHarvest.Markup
