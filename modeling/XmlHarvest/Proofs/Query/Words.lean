import Mathlib.Computability.Language
import Mathlib.Data.List.TakeWhile
import XmlHarvest.Query.Token

/-!
# Words of tokens

Every token can be written down, a literal in two ways if it holds neither quote. Words with
spacing between them are cut into the tokens that they stand for, whatever the tokens are: the
spacing ends the longest match. Conversely the names, literals and numbers that a text is cut into
are names, literals and numbers of the grammar.

## Main definitions

* `Query.IsNCName`, `Query.IsQuotable`, `Query.IsUnsigned`: the names, literals and numbers of the
  grammar.
* `Query.Token.IsProper`: a token of the grammar.
* `Query.Token.words`: the ways to write a token.
* `Query.spaced`: the ways to write tokens with spacing between them.

## Main results

* `Query.tokens?_of_mem_spaced`: spaced words are cut into their tokens.
* `Query.isProper_of_tokens?`: every token of a text is one of the grammar.
-/

namespace XmlHarvest.Query

open Text

/-! ## The tokens of the grammar -/

/-- A name without a qualifier: a character that starts a name and characters that go on. -/
def IsNCName (s : String) : Prop :=
  ∃ c r, s.toList = c :: r ∧ isNameStart c ∧ ∀ d ∈ r, isNameChar d

instance (s : String) : Decidable (IsNCName s) :=
  match h : s.toList with
  | [] => isFalse fun ⟨_, _, hs, _⟩ => by simp [h] at hs
  | c :: r => decidable_of_iff (isNameStart c && r.all isNameChar) (by simp [IsNCName, h])

/-- A name whose parts are both names without a qualifier. -/
def WrittenName.IsProper (n : WrittenName) : Prop :=
  (∀ q ∈ n.qualifier, IsNCName q) ∧ IsNCName n.localPart

/-- A text that does not hold both quotes. -/
def IsQuotable (s : String) : Prop :=
  '"' ∉ s.toList ∨ '\'' ∉ s.toList

/-- The numbers that can be written: digits, with a point behind or between them or without one,
or a point with digits behind it. -/
inductive IsUnsigned : List Char → Prop
  | whole (digits : List Char) (hne : digits ≠ []) (h : ∀ c ∈ digits, c.isDigit) :
    IsUnsigned digits
  | point (digits fraction : List Char) (hne : digits ≠ [] ∨ fraction ≠ [])
    (h : ∀ c ∈ digits, c.isDigit) (hf : ∀ c ∈ fraction, c.isDigit) :
    IsUnsigned (digits ++ '.' :: fraction)

/-- A token of the grammar. -/
def Token.IsProper : Token → Prop
  | .number digits => IsUnsigned digits
  | .literal text => IsQuotable text
  | .reference n | .name n => n.IsProper
  | .wildcard q => IsNCName q
  | .symbol _ => True

@[simp] lemma Token.isProper_symbol (s : Symbol) : (Token.symbol s).IsProper :=
  trivial

/-- The ways to write a token. A literal stands in either quote that it does not hold. -/
def Token.words : Token → Language Char
  | .number digits => {digits}
  | .literal text =>
    {w | ∃ q, (q = '"' ∨ q = '\'') ∧ q ∉ text.toList ∧ w = q :: (text.toList ++ [q])}
  | .reference n => {'$' :: n.toText.toList}
  | .name n => {n.toText.toList}
  | .wildcard q => {q.toList ++ [':', '*']}
  | .symbol s => {s.spell}

/-- Spacing that keeps two words apart: one or more spaces, tabs, carriage returns or line
feeds. -/
def gaps : Language Char :=
  {w | w ≠ [] ∧ ∀ c ∈ w, isSpacing c}

/-- Pieces with separators between them. -/
def separated {α : Type} (separator : Language α) : List (Language α) → Language α
  | [] => 1
  | [l] => l
  | l :: ls => l * separator * separated separator ls

/-- The ways to write tokens with spacing between them. -/
def spaced (ts : List Token) : Language Char :=
  separated gaps (ts.map Token.words)

/-- Every token of the grammar can be written. -/
lemma Token.exists_word {t : Token} (h : t.IsProper) : ∃ w, w ∈ t.words := by
  cases t with
  | literal text =>
    rcases h with h | h
    · exact ⟨_, '"', .inl rfl, h, rfl⟩
    · exact ⟨_, '\'', .inr rfl, h, rfl⟩
  | number | reference | name | wildcard | symbol => exact ⟨_, rfl⟩

/-- One more word in front of spaced words. -/
lemma mem_spaced_cons {t u : Token} {ts : List Token} {w gap s : List Char} (hw : w ∈ t.words)
    (hgap : gap ∈ gaps) (hs : s ∈ spaced (u :: ts)) : w ++ gap ++ s ∈ spaced (t :: u :: ts) :=
  Language.append_mem_mul (Language.append_mem_mul hw hgap) hs

/-- Tokens of the grammar can be written with spacing between them. -/
lemma exists_mem_spaced {ts : List Token} (h : ∀ t ∈ ts, t.IsProper) : ∃ s, s ∈ spaced ts := by
  induction ts with
  | nil => exact ⟨[], rfl⟩
  | cons t ts ih =>
    obtain ⟨w, hw⟩ := Token.exists_word (h t List.mem_cons_self)
    cases ts with
    | nil => exact ⟨w, hw⟩
    | cons u ts =>
      obtain ⟨s, hs⟩ := ih fun x hx => h x (List.mem_cons_of_mem t hx)
      have hgap : [' '] ∈ gaps := ⟨by simp, by simp [isSpacing]⟩
      exact ⟨_, mem_spaced_cons hw hgap hs⟩

/-! ## Characters -/

/-- Nothing or spacing stands at the start of a text. -/
def StartsSpaced (s : List Char) : Prop :=
  ∀ c ∈ s.head?, isSpacing c

/-- What starts with spacing starts with no other character. -/
lemma StartsSpaced.ne_cons {s : List Char} (h : StartsSpaced s) {c : Char}
    (hc : isSpacing c = false) (r : List Char) : s ≠ c :: r := by
  rintro rfl
  rw [h c rfl] at hc
  cases hc

/-- The four characters of spacing. -/
lemma eq_of_isSpacing {c : Char} (h : isSpacing c) : c = ' ' ∨ c = '\t' ∨ c = '\r' ∨ c = '\n' := by
  simpa [isSpacing, or_assoc] using h

/-- Spacing ends a name. -/
lemma not_isNameChar_of_isSpacing {c : Char} (h : isSpacing c) : isNameChar c = false := by
  obtain rfl | rfl | rfl | rfl := eq_of_isSpacing h <;> decide

/-- Spacing ends a number. -/
lemma not_isDigit_of_isSpacing {c : Char} (h : isSpacing c) : c.isDigit = false := by
  obtain rfl | rfl | rfl | rfl := eq_of_isSpacing h <;> decide

/-- A digit does not start a name. -/
lemma isNameStart_of_isDigit {c : Char} (h : c.isDigit) : isNameStart c = false := by
  have hrange : 48 ≤ c.toNat ∧ c.toNat ≤ 57 := by
    simpa [Char.isDigit, UInt32.le_iff_toNat_le] using h
  have hne : c ≠ '_' := by
    rintro rfl
    cases h
  have hletter : isLetter c = false := by
    have hupper : ¬c.val ≥ 'A'.val := fun h => by
      have hle : 65 ≤ c.toNat := UInt32.le_iff_toNat_le.1 h
      omega
    have hlower : ¬c.val ≥ 'a'.val := fun h => by
      have hle : 97 ≤ c.toNat := UInt32.le_iff_toNat_le.1 h
      omega
    rw [isLetter, if_pos (by omega)]
    exact Bool.or_eq_false_iff.2 ⟨decide_eq_false fun h => hupper h.1,
      Bool.and_eq_false_iff.2 (.inl (decide_eq_false hlower))⟩
  simp [isNameStart, hletter, hne]

/-- A name starts neither with a digit nor with a point. -/
lemma not_of_isNameStart {c : Char} (h : isNameStart c) : c.isDigit = false ∧ c ≠ '.' := by
  refine ⟨?_, ?_⟩
  · by_contra hd
    rw [isNameStart_of_isDigit (by simpa using hd)] at h
    cases h
  · rintro rfl
    exact absurd h (by decide)

/-- What a class of characters ends at is cut off behind them. -/
lemma takeWhile_dropWhile_append {p : Char → Bool} {a rest : List Char} (ha : ∀ c ∈ a, p c)
    (hrest : ∀ c ∈ rest.head?, p c = false) :
    (a ++ rest).takeWhile p = a ∧ (a ++ rest).dropWhile p = rest := by
  have hnil : rest.takeWhile p = [] ∧ rest.dropWhile p = rest := by
    cases rest with
    | nil => simp
    | cons c r => simp [hrest c rfl]
  rw [List.takeWhile_append_of_pos ha, List.dropWhile_append_of_pos ha, hnil.1, hnil.2]
  simp

/-! ## Cutting off one word -/

/-- A number is cut off up to the spacing behind it. -/
lemma firstNumber?_append {digits rest : List Char} (h : IsUnsigned digits)
    (hrest : StartsSpaced rest) : firstNumber? (digits ++ rest) = some (digits, rest) := by
  have hends : ∀ c ∈ rest.head?, c.isDigit = false := fun c hc =>
    not_isDigit_of_isSpacing (hrest c hc)
  cases h with
  | whole _ hne h =>
    obtain ⟨htake, hdrop⟩ := takeWhile_dropWhile_append h hends
    have hpoint : ∀ r, rest ≠ '.' :: r := hrest.ne_cons (by decide)
    simp only [firstNumber?, htake, hdrop]
    rw [if_neg (by simpa using hne)]
  | point whole fraction hne h hf =>
    obtain ⟨htake, hdrop⟩ := takeWhile_dropWhile_append hf hends
    have hpoint : ∀ c ∈ ('.' :: (fraction ++ rest)).head?, c.isDigit = false := by simp
    obtain ⟨htake', hdrop'⟩ := takeWhile_dropWhile_append h hpoint
    have hempty : (whole.isEmpty && fraction.isEmpty) = false := by
      rcases hne with hne | hne <;> simp [hne]
    simp only [firstNumber?, List.append_assoc, List.cons_append, htake', hdrop', htake, hdrop]
    simp [hempty]

/-- A text that starts with neither a digit nor a point starts with no number. -/
lemma firstNumber?_eq_none {c : Char} {r : List Char} (hdigit : c.isDigit = false)
    (hpoint : c ≠ '.') : firstNumber? (c :: r) = none := by
  simp [firstNumber?, hdigit, hpoint]

/-- What starts like a name starts with no number. -/
lemma firstNumber?_of_isNameStart {c : Char} {r : List Char} (h : isNameStart c) :
    firstNumber? (c :: r) = none :=
  firstNumber?_eq_none (not_of_isNameStart h).1 (not_of_isNameStart h).2

/-- A part of a name is cut off up to a character that does not belong to names. -/
lemma firstPart?_append {name : String} {rest : List Char} (h : IsNCName name)
    (hrest : ∀ c ∈ rest.head?, isNameChar c = false) :
    firstPart? (name.toList ++ rest) = some (name.toList, rest) := by
  obtain ⟨c, r, hname, hstart, hr⟩ := h
  obtain ⟨htake, hdrop⟩ := takeWhile_dropWhile_append hr hrest
  simp [hname, firstPart?, hstart, htake, hdrop]

/-- A name is cut off up to the spacing behind it. -/
lemma firstName?_append {n : WrittenName} {rest : List Char} (h : n.IsProper)
    (hrest : StartsSpaced rest) : firstName? (n.toText.toList ++ rest) = some (n, rest) := by
  have hends : ∀ c ∈ rest.head?, isNameChar c = false := fun c hc =>
    not_isNameChar_of_isSpacing (hrest c hc)
  have hcolon : ∀ r, rest ≠ ':' :: r := hrest.ne_cons (by decide)
  obtain ⟨q | q, a⟩ := n
  · simp [firstName?, WrittenName.toText, firstPart?_append h.2 hends]
  · have hq : ∀ c ∈ (':' :: (a.toList ++ rest)).head?, isNameChar c = false := by
      rintro c ⟨⟩
      decide
    simp [firstName?, WrittenName.toText, firstPart?_append h.2 hends,
      firstPart?_append (h.1 q rfl) hq]

/-- A name starts with a character that starts names. -/
lemma exists_cons_of_isProper {n : WrittenName} (h : n.IsProper) :
    ∃ c r, n.toText.toList = c :: r ∧ isNameStart c := by
  obtain ⟨q | q, a⟩ := n
  · obtain ⟨c, r, ha, hc, -⟩ := h.2
    exact ⟨c, r, ha, hc⟩
  · obtain ⟨c, r, hq, hc, -⟩ := h.1 q rfl
    exact ⟨c, r ++ ':' :: a.toList, by simp [WrittenName.toText, hq], hc⟩

/-- A text that starts with no character of names starts with no name. -/
lemma firstName?_eq_none {c : Char} {r : List Char} (h : isNameStart c = false) :
    firstName? (c :: r) = none := by
  simp [firstName?, firstPart?, h]

/-- A symbol is cut off up to spacing, and not a longer one. -/
lemma symbol_first?_append (s : Symbol) {rest : List Char} (hrest : StartsSpaced rest) :
    Symbol.first? (s.spell ++ rest) = some (s, rest) := by
  cases rest with
  | nil => cases s <;> rfl
  | cons c r =>
    have hc : c ≠ '/' ∧ c ≠ '.' ∧ c ≠ '=' := by
      obtain rfl | rfl | rfl | rfl := eq_of_isSpacing (hrest c rfl) <;> decide
    cases s <;>
      simp [Symbol.first?, Symbol.all, Symbol.spell, stripStart, hc.1.symm, hc.2.1.symm,
        hc.2.2.symm]

/-- No symbol in front of spacing starts like a number, not even a point. -/
lemma firstNumber?_symbol (s : Symbol) {rest : List Char} (hrest : StartsSpaced rest) :
    firstNumber? (s.spell ++ rest) = none := by
  have hrest : ∀ c ∈ rest.head?, c.isDigit = false := fun c hc =>
    not_isDigit_of_isSpacing (hrest c hc)
  cases s with
  | dot =>
    cases rest with
    | nil => rfl
    | cons c r => simp [firstNumber?, Symbol.spell, hrest c rfl]
  | dotDot => simp [firstNumber?, Symbol.spell]
  | _ => exact firstNumber?_eq_none (by decide) (by decide)

/-- No symbol starts like a name. -/
lemma firstName?_symbol (s : Symbol) (rest : List Char) : firstName? (s.spell ++ rest) = none := by
  cases s <;> exact firstName?_eq_none (by decide)

/-- A literal is cut off at its second quote. -/
lemma splitAt_append {q : Char} {text rest : List Char} (h : q ∉ text) :
    splitAt (· = q) (text ++ q :: rest) = some (text, q, rest) := by
  induction text with
  | nil => simp [splitAt]
  | cons c r ih =>
    obtain ⟨hc, hr⟩ := not_or.1 (mt List.mem_cons.2 h)
    simp [splitAt, Ne.symm hc, ih hr]

/-- **A word is cut off up to the spacing behind it**, and the token found is the one that it is a
word of. -/
lemma Token.first?_append {t : Token} (ht : t.IsProper) {w rest : List Char} (hw : w ∈ t.words)
    (hrest : StartsSpaced rest) : Token.first? (w ++ rest) = some (t, rest) := by
  cases t with
  | number digits =>
    obtain rfl : w = digits := hw
    simp [Token.first?, firstNumber?_append ht hrest]
  | name n =>
    obtain rfl : w = n.toText.toList := hw
    obtain ⟨c, r, hn, hc⟩ := exists_cons_of_isProper ht
    have hnumber : firstNumber? (n.toText.toList ++ rest) = none := by
      rw [hn]
      exact firstNumber?_of_isNameStart hc
    simp only [Token.first?, hnumber, firstName?_append ht hrest]
    split
    · rename_i heq
      cases heq
      exact absurd rfl (hrest.ne_cons (by decide) _)
    · rename_i heq
      cases heq
      rfl
    · rename_i heq
      cases heq
  | wildcard q =>
    obtain rfl : w = q.toList ++ [':', '*'] := hw
    obtain ⟨c, r, hq, hc, -⟩ := id ht
    have hnumber : firstNumber? (q.toList ++ ':' :: '*' :: rest) = none := by
      rw [hq]
      exact firstNumber?_of_isNameStart hc
    have hcolon : ∀ c ∈ (':' :: '*' :: rest).head?, isNameChar c = false := by
      rintro c ⟨⟩
      decide
    have hstar : firstPart? ('*' :: rest) = none := by
      simp [firstPart?, show isNameStart '*' = false by decide]
    have hname : firstName? (q.toList ++ ':' :: '*' :: rest) =
        some (⟨none, q⟩, ':' :: '*' :: rest) := by
      simp [firstName?, firstPart?_append ht hcolon, hstar]
    simp [Token.first?, hnumber, hname]
  | reference n =>
    obtain rfl : w = '$' :: n.toText.toList := hw
    have hnumber : firstNumber? ('$' :: (n.toText.toList ++ rest)) = none :=
      firstNumber?_eq_none (by decide) (by decide)
    have hname : firstName? ('$' :: (n.toText.toList ++ rest)) = none :=
      firstName?_eq_none (by decide)
    simp [Token.first?, hnumber, hname, firstName?_append ht hrest]
  | literal text =>
    obtain ⟨q, hq, htext, rfl⟩ := hw
    have hnumber : firstNumber? (q :: (text.toList ++ q :: rest)) = none := by
      obtain rfl | rfl := hq <;> exact firstNumber?_eq_none (by decide) (by decide)
    have hname : firstName? (q :: (text.toList ++ q :: rest)) = none := by
      obtain rfl | rfl := hq <;> exact firstName?_eq_none (by decide)
    obtain rfl | rfl := hq <;> simp [Token.first?, hnumber, hname, splitAt_append htext]
  | symbol s =>
    obtain rfl : w = s.spell := hw
    have hsymbol := symbol_first?_append s hrest
    have hnumber := firstNumber?_symbol s hrest
    have hname := firstName?_symbol s rest
    cases s <;> simp_all [Token.first?, Symbol.spell]

/-! ## Cutting a text -/

/-- A text of spacing alone has no tokens. -/
lemma tokens?_of_nil {s : List Char} (h : s.dropWhile isSpacing = []) : tokens? s = some [] := by
  unfold tokens?
  split
  · rfl
  · rename_i c r hs
    rw [h] at hs
    cases hs

/-- A text that starts with no token cannot be cut. -/
lemma tokens?_of_none {s r : List Char} {c : Char} (hs : s.dropWhile isSpacing = c :: r)
    (h : Token.first? (c :: r) = none) : tokens? s = none := by
  rw [tokens?]
  split
  · rename_i hs'
    rw [hs] at hs'
    cases hs'
  · rename_i hs'
    rw [hs] at hs'
    cases hs'
    split
    · rfl
    · rename_i hfirst
      rw [h] at hfirst
      cases hfirst

/-- The tokens of a text are its first one and those of what follows it. -/
lemma tokens?_of_first? {s rest : List Char} {t : Token}
    (h : Token.first? (s.dropWhile isSpacing) = some (t, rest)) :
    tokens? s = (tokens? rest).map (t :: ·) := by
  rw [tokens?]
  split
  · rename_i hs
    rw [hs] at h
    cases h
  · rename_i c r hs
    split
    · rename_i ht
      rw [← hs, h] at ht
      cases ht
    · rename_i u rest' ht
      rw [← hs, h] at ht
      cases ht
      rfl

/-- No token starts with spacing. -/
lemma dropWhile_of_first? {s rest : List Char} {t : Token} (h : Token.first? s = some (t, rest)) :
    s.dropWhile isSpacing = s := by
  cases s with
  | nil => rfl
  | cons c r =>
    have hc : ¬isSpacing c := by
      intro hc
      have hname : firstName? (c :: r) = none := by
        obtain rfl | rfl | rfl | rfl := eq_of_isSpacing hc <;> exact firstName?_eq_none (by decide)
      have hnumber : firstNumber? (c :: r) = none := by
        obtain rfl | rfl | rfl | rfl := eq_of_isSpacing hc <;>
          exact firstNumber?_eq_none (by decide) (by decide)
      obtain rfl | rfl | rfl | rfl := eq_of_isSpacing hc <;>
        simp [Token.first?, hname, hnumber, Symbol.first?, Symbol.all, stripStart,
          Symbol.spell] at h
    simp [hc]

/-- The tokens of a word behind spacing and of what follows it. -/
lemma tokens?_append {gap w rest : List Char} {t : Token} (ht : t.IsProper)
    (hgap : ∀ c ∈ gap, isSpacing c) (hw : w ∈ t.words) (hrest : StartsSpaced rest) :
    tokens? (gap ++ (w ++ rest)) = (tokens? rest).map (t :: ·) := by
  have hfirst := Token.first?_append ht hw hrest
  refine tokens?_of_first? ?_
  rw [List.dropWhile_append_of_pos hgap, dropWhile_of_first? hfirst, hfirst]

/-- **Spaced words are cut into their tokens**, also behind spacing. -/
lemma tokens?_of_mem_spaced {ts : List Token} (hts : ∀ t ∈ ts, t.IsProper) {gap s : List Char}
    (hgap : ∀ c ∈ gap, isSpacing c) (hs : s ∈ spaced ts) : tokens? (gap ++ s) = some ts := by
  induction ts generalizing gap s with
  | nil =>
    obtain rfl : s = [] := hs
    exact tokens?_of_nil (by rw [List.dropWhile_append_of_pos hgap]; rfl)
  | cons t ts ih =>
    have ht := hts t List.mem_cons_self
    cases ts with
    | nil =>
      have hempty : tokens? [] = some [] := tokens?_of_nil rfl
      have hcut := @tokens?_append gap s [] t ht hgap hs nofun
      rw [List.append_nil, hempty] at hcut
      exact hcut
    | cons u ts =>
      obtain ⟨_, hwgap, s', hs', rfl⟩ := Language.mem_mul.1 hs
      obtain ⟨w, hw, gap', hgap', rfl⟩ := Language.mem_mul.1 hwgap
      obtain ⟨c, r, rfl⟩ := List.exists_cons_of_ne_nil hgap'.1
      have hstarts : StartsSpaced (c :: r ++ s') := by
        rintro d ⟨⟩
        exact hgap'.2 c List.mem_cons_self
      have hrest := ih (fun x hx => hts x (List.mem_cons_of_mem t hx)) hgap'.2 hs'
      rw [List.append_assoc, tokens?_append ht hgap hw hstarts, hrest]
      rfl

/-! ## What a text is cut into -/

/-- The number at the start of a text is one of the grammar. -/
lemma isUnsigned_of_firstNumber? {s digits rest : List Char}
    (h : firstNumber? s = some (digits, rest)) : IsUnsigned digits := by
  have hdigits : ∀ {r : List Char}, ∀ c ∈ r.takeWhile Char.isDigit, c.isDigit := fun c hc =>
    List.mem_takeWhile_imp hc
  unfold firstNumber? at h
  simp only at h
  split at h
  · split at h
    · cases h
    · rename_i hne
      cases h
      refine .point _ _ (not_and_or.1 fun hempty => hne ?_) hdigits hdigits
      rw [hempty.1, hempty.2]
      rfl
  · split at h
    · cases h
    · rename_i hne
      cases h
      exact .whole _ (by simpa using hne) hdigits

/-- The part of a name at the start of a text is a name without a qualifier. -/
lemma isNCName_of_firstPart? {s name rest : List Char} (h : firstPart? s = some (name, rest)) :
    IsNCName (String.ofList name) := by
  cases s with
  | nil => cases h
  | cons c r =>
    rw [firstPart?] at h
    split at h
    · rename_i hc
      cases h
      exact ⟨c, r.takeWhile isNameChar, by simp, hc, fun d hd => List.mem_takeWhile_imp hd⟩
    · cases h

/-- The name at the start of a text is one of the grammar. -/
lemma isProper_of_firstName? {s rest : List Char} {n : WrittenName}
    (h : firstName? s = some (n, rest)) : n.IsProper := by
  unfold firstName? at h
  split at h
  · cases h
  · rename_i a r ha
    split at h
    · rename_i b rest' hb
      cases h
      refine ⟨?_, isNCName_of_firstPart? hb⟩
      rintro q ⟨⟩
      exact isNCName_of_firstPart? ha
    · cases h
      exact ⟨nofun, isNCName_of_firstPart? ha⟩
  · rename_i a rest' ha
    cases h
    exact ⟨nofun, isNCName_of_firstPart? ha⟩

/-- No character of the class stands before the first one. -/
lemma not_mem_of_splitAt {p : Char → Bool} {s before rest : List Char} {c : Char}
    (h : splitAt p s = some (before, c, rest)) : ∀ d ∈ before, p d = false := by
  induction s generalizing before with
  | nil => cases h
  | cons d s ih =>
    rw [splitAt] at h
    split at h
    · cases h
      simp
    · rename_i hd
      obtain ⟨⟨b, e, r⟩, hr, heq⟩ := Option.map_eq_some_iff.1 h
      cases heq
      intro x hx
      obtain rfl | hx := List.mem_cons.1 hx
      · simpa using hd
      · exact ih hr x hx

/-- The token at the start of a text is one of the grammar. -/
lemma Token.isProper_of_first? {s rest : List Char} {t : Token}
    (h : Token.first? s = some (t, rest)) : t.IsProper := by
  unfold Token.first? at h
  split at h
  · rename_i digits r hnumber
    cases h
    exact isUnsigned_of_firstNumber? hnumber
  · split at h
    · rename_i a r hname
      cases h
      exact (isProper_of_firstName? hname).2
    · rename_i n r _ hname
      cases h
      exact isProper_of_firstName? hname
    · split at h
      · obtain ⟨⟨n, r⟩, hname, heq⟩ := Option.map_eq_some_iff.1 h
        cases heq
        exact isProper_of_firstName? hname
      · obtain ⟨⟨text, q, r⟩, htext, heq⟩ := Option.map_eq_some_iff.1 h
        cases heq
        exact .inl fun hq => by simpa using not_mem_of_splitAt htext '"' (by simpa using hq)
      · obtain ⟨⟨text, q, r⟩, htext, heq⟩ := Option.map_eq_some_iff.1 h
        cases heq
        exact .inr fun hq => by simpa using not_mem_of_splitAt htext '\'' (by simpa using hq)
      · obtain ⟨⟨x, r⟩, -, heq⟩ := Option.map_eq_some_iff.1 h
        cases heq
        trivial

/-- **Every token of a text is one of the grammar.** -/
lemma isProper_of_tokens? {s : List Char} {ts : List Token} (h : tokens? s = some ts) :
    ∀ t ∈ ts, t.IsProper := by
  induction s using tokens?.induct generalizing ts with
  | case1 s hs =>
    rw [tokens?_of_nil hs] at h
    cases h
    nofun
  | case2 s c r hs hfirst =>
    rw [tokens?_of_none hs hfirst] at h
    cases h
  | case3 s c r hs t rest hfirst ih =>
    rw [← hs] at hfirst
    rw [tokens?_of_first? hfirst] at h
    obtain ⟨us, hus, rfl⟩ := Option.map_eq_some_iff.1 h
    intro u hu
    obtain rfl | hu := List.mem_cons.1 hu
    · exact Token.isProper_of_first? hfirst
    · exact ih hus u hu

end XmlHarvest.Query
