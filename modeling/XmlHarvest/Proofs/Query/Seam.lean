import XmlHarvest.Proofs.Query.Words

/-!
# Texts that are joined by a slash

Tokens are as long as possible, so a character behind a text may lengthen its last token. A slash
does this to one token only, a slash before it. So a text that does not end in a slash and a text
that does not begin with one are joined by a slash into a text with the tokens of both and a slash
between them.

## Main results

* `Query.Token.first?_slash`: the first token in front of a slash.
* `Query.tokens?_slash`: the tokens of two texts that are joined by a slash.
-/

namespace XmlHarvest.Query

open Text

variable {s rest : List Char} (u : List Char)

/-! ## One token -/

/-- Characters that a slash does not belong to are cut off as without it. -/
lemma takeWhile_dropWhile_slash {p : Char → Bool} (hp : p '/' = false) (s : List Char) :
    (s ++ '/' :: u).takeWhile p = s.takeWhile p ∧
      (s ++ '/' :: u).dropWhile p = s.dropWhile p ++ '/' :: u := by
  induction s with
  | nil => simp [hp]
  | cons c s ih =>
    cases hc : p c
    · simp [hc]
    · simp [hc, ih.1, ih.2]

/-- A number ends at a slash. -/
lemma firstNumber?_slash (s : List Char) : firstNumber? (s ++ '/' :: u) =
    (firstNumber? s).map fun (digits, rest) => (digits, rest ++ '/' :: u) := by
  have hslash : Char.isDigit '/' = false := by decide
  obtain ⟨htake, hdrop⟩ := takeWhile_dropWhile_slash u hslash s
  simp only [firstNumber?, htake, hdrop]
  generalize s.takeWhile Char.isDigit = whole
  cases s.dropWhile Char.isDigit with
  | nil => cases whole <;> simp
  | cons c r =>
    by_cases hc : c = '.'
    · subst hc
      obtain ⟨htake', hdrop'⟩ := takeWhile_dropWhile_slash u hslash r
      simp only [List.cons_append, htake', hdrop']
      split <;> rfl
    · cases whole <;> simp [hc]

/-- A part of a name ends at a slash. -/
lemma firstPart?_slash (s : List Char) : firstPart? (s ++ '/' :: u) =
    (firstPart? s).map fun (name, rest) => (name, rest ++ '/' :: u) := by
  cases s with
  | nil =>
    have hslash : isNameStart '/' = false := by decide
    simp [firstPart?, hslash]
  | cons c r =>
    have hslash : isNameChar '/' = false := by decide
    obtain ⟨htake, hdrop⟩ := takeWhile_dropWhile_slash u hslash r
    simp only [List.cons_append, firstPart?, htake, hdrop]
    split <;> rfl

/-- A name ends at a slash. -/
lemma firstName?_slash (s : List Char) : firstName? (s ++ '/' :: u) =
    (firstName? s).map fun (n, rest) => (n, rest ++ '/' :: u) := by
  simp only [firstName?, firstPart?_slash]
  obtain _ | ⟨a, _ | ⟨c, r⟩⟩ := firstPart? s
  · rfl
  · rfl
  · by_cases hc : c = ':'
    · subst hc
      simp only [Option.map_some, List.cons_append, firstPart?_slash]
      cases firstPart? r <;> rfl
    · simp [hc]

/-- What is cut off at a character is cut off in front of anything that follows. -/
lemma splitAt_append_of_eq_some {p : Char → Bool} {before : List Char} {c : Char}
    (h : splitAt p s = some (before, c, rest)) (t : List Char) :
    splitAt p (s ++ t) = some (before, c, rest ++ t) := by
  induction s generalizing before with
  | nil => cases h
  | cons d s ih =>
    rw [splitAt] at h
    rw [List.cons_append, splitAt]
    split at h
    · rename_i hd
      cases h
      rw [if_pos hd]
    · rename_i hd
      obtain ⟨⟨b, e, r⟩, hr, heq⟩ := Option.map_eq_some_iff.1 h
      cases heq
      rw [if_neg hd, ih hr]
      rfl

/-- A beginning that fits into a text is found there or not, whatever follows. -/
lemma stripStart_append {p : List Char} (hlen : p.length ≤ s.length) (t : List Char) :
    stripStart p (s ++ t) = (stripStart p s).map (· ++ t) := by
  induction p generalizing s with
  | nil => rfl
  | cons a p ih =>
    cases s with
    | nil => simp at hlen
    | cons c s =>
      rw [List.cons_append, stripStart, stripStart, ih (by simpa using hlen)]
      split <;> rfl

/-- A symbol other than a slash is cut off in front of a slash. -/
lemma symbol_first?_spell (x : Symbol) (hx : x ≠ .slash) :
    Symbol.first? (x.spell ++ '/' :: u) = some (x, '/' :: u) := by
  cases x <;> first | exact absurd rfl hx | rfl

/-- A symbol ends at a slash, except for a slash. -/
lemma symbol_first?_slash {x : Symbol} (h : Symbol.first? s = some (x, rest))
    (hx : rest = [] → x ≠ .slash) :
    Symbol.first? (s ++ '/' :: u) = some (x, rest ++ '/' :: u) := by
  obtain ⟨y, hy, hstrip⟩ := List.exists_of_findSome?_eq_some h
  obtain ⟨r, hr, heq⟩ := Option.map_eq_some_iff.1 hstrip
  cases heq
  have hs := eq_append_of_stripStart hr
  by_cases hlen : 2 ≤ s.length
  · have hshort : ∀ z : Symbol, z.spell.length ≤ s.length := fun z => by
      cases z <;> simp only [Symbol.spell, List.length_cons, List.length_nil] <;> omega
    have hall : ∀ z : Symbol, (stripStart z.spell (s ++ '/' :: u)).map (fun r => (z, r)) =
        ((stripStart z.spell s).map fun r => (z, r)).map (Prod.map id (· ++ '/' :: u)) := by
      intro z
      rw [stripStart_append (hshort z), Option.map_map, Option.map_map]
      rfl
    have hmap : Symbol.first? (s ++ '/' :: u) =
        (Symbol.first? s).map (Prod.map id (· ++ '/' :: u)) := by
      rw [Symbol.first?, Symbol.first?, List.map_findSome?]
      exact congrArg (List.findSome? · Symbol.all) (funext hall)
    rw [hmap, h]
    rfl
  · have hrest : rest = [] := by
      have hspell := List.length_pos_iff.2 (spell_ne_nil x)
      have hs := congrArg List.length hs
      rw [List.length_append] at hs
      exact List.eq_nil_of_length_eq_zero (by omega)
    subst hrest
    rw [hs, List.append_nil, symbol_first?_spell u x (hx rfl)]
    rfl

/-- **A token ends at a slash**, except for a slash that nothing stands behind. -/
lemma Token.first?_slash {t : Token} (h : Token.first? s = some (t, rest))
    (ht : rest = [] → t ≠ .symbol .slash) :
    Token.first? (s ++ '/' :: u) = some (t, rest ++ '/' :: u) := by
  unfold Token.first? at h ⊢
  rw [firstNumber?_slash, firstName?_slash]
  split at h
  · rename_i digits r hnumber
    cases h
    rw [hnumber]
    rfl
  · rename_i hnumber
    rw [hnumber]
    split at h
    · rename_i a r hname
      cases h
      rw [hname]
      rfl
    · rename_i n r hwild hname
      cases h
      rw [hname]
      simp only [Option.map_none, Option.map_some]
      split
      · rename_i a r' heq
        simp only [Option.some.injEq, Prod.mk.injEq] at heq
        obtain ⟨rfl, hr⟩ := heq
        obtain _ | ⟨c, _ | ⟨d, rest⟩⟩ := rest
        · simp at hr
        · simp at hr
        · simp only [List.cons_append, List.cons.injEq] at hr
          obtain ⟨rfl, rfl, -⟩ := hr
          exact (hwild a rest rfl rfl).elim
      · rename_i heq
        cases heq
        rfl
      · rename_i heq
        cases heq
    · rename_i hname
      rw [hname]
      split at h
      · rename_i r
        obtain ⟨⟨n, r'⟩, hn, heq⟩ := Option.map_eq_some_iff.1 h
        cases heq
        simp [firstName?_slash, hn]
      · rename_i r
        obtain ⟨⟨text, q, r'⟩, htext, heq⟩ := Option.map_eq_some_iff.1 h
        cases heq
        simp [splitAt_append_of_eq_some htext]
      · rename_i r
        obtain ⟨⟨text, q, r'⟩, htext, heq⟩ := Option.map_eq_some_iff.1 h
        cases heq
        simp [splitAt_append_of_eq_some htext]
      · rename_i hdollar hdouble hsingle
        obtain ⟨⟨x, r'⟩, hx, heq⟩ := Option.map_eq_some_iff.1 h
        cases heq
        have hsymbol := symbol_first?_slash u hx fun hr hslash => ht hr (congrArg _ hslash)
        cases s with
        | nil => cases hx
        | cons c r =>
          have hc : c ≠ '$' ∧ c ≠ '"' ∧ c ≠ '\'' :=
            ⟨fun hc => hdollar r (hc ▸ rfl), fun hc => hdouble r (hc ▸ rfl),
              fun hc => hsingle r (hc ▸ rfl)⟩
          rw [List.cons_append] at hsymbol ⊢
          simp [hc, hsymbol]

/-! ## All tokens -/

/-- A slash in front of a text that starts with no slash is a token of its own. -/
lemma Token.first?_cons_slash (h : s.head? ≠ some '/') :
    Token.first? ('/' :: s) = some (.symbol .slash, s) := by
  have hnumber : firstNumber? ('/' :: s) = none := firstNumber?_eq_none (by decide) (by decide)
  have hname : firstName? ('/' :: s) = none := firstName?_eq_none (by decide)
  have hsymbol : Symbol.first? ('/' :: s) = some (.slash, s) := by
    cases s with
    | nil => rfl
    | cons c r =>
      have hc : '/' ≠ c := by
        rintro rfl
        exact h rfl
      simp [Symbol.first?, Symbol.all, Symbol.spell, stripStart, hc]
  simp [Token.first?, hnumber, hname, hsymbol]

/-- A text that begins with a slash begins with one of the tokens for slashes. -/
lemma exists_slash_of_tokens? {ts : List Token} (h : tokens? ('/' :: s) = some ts) :
    ∃ us, ts = .symbol .slash :: us ∨ ts = .symbol .doubleSlash :: us := by
  obtain ⟨x, r, hx, hfirst⟩ : ∃ x r, (x = .slash ∨ x = .doubleSlash) ∧
      Token.first? ('/' :: s) = some (.symbol x, r) := by
    by_cases hs : s.head? = some '/'
    · obtain ⟨r, rfl⟩ := List.head?_eq_some_iff.1 hs
      have hnumber : firstNumber? ('/' :: '/' :: r) = none :=
        firstNumber?_eq_none (by decide) (by decide)
      have hname : firstName? ('/' :: '/' :: r) = none := firstName?_eq_none (by decide)
      have hsymbol : Symbol.first? ('/' :: '/' :: r) = some (.doubleSlash, r) := rfl
      exact ⟨.doubleSlash, r, .inr rfl, by simp [Token.first?, hnumber, hname, hsymbol]⟩
    · exact ⟨.slash, s, .inl rfl, Token.first?_cons_slash hs⟩
  rw [tokens?_of_first? (by rw [dropWhile_of_first? hfirst, hfirst])] at h
  obtain ⟨us, -, rfl⟩ := Option.map_eq_some_iff.1 h
  obtain rfl | rfl := hx
  · exact ⟨us, .inl rfl⟩
  · exact ⟨us, .inr rfl⟩

/-- **Two texts that are joined by a slash** have the tokens of both, with a slash between them.

**Proof sketch.** Induction along the cut of the first text. A token of it ends where it ended
before; only a slash at the very end would not. -/
lemma tokens?_slash {ts : List Token} (hs : tokens? s = some ts)
    (hlast : ts.getLast? ≠ some (.symbol .slash)) (hu : u.head? ≠ some '/') :
    tokens? (s ++ '/' :: u) = (tokens? u).map fun us => ts ++ .symbol .slash :: us := by
  have hdrop (s : List Char) : (s ++ '/' :: u).dropWhile isSpacing =
      s.dropWhile isSpacing ++ '/' :: u := (takeWhile_dropWhile_slash u (by decide) s).2
  induction s using tokens?.induct generalizing ts with
  | case1 s hnil =>
    rw [tokens?_of_nil hnil] at hs
    cases hs
    refine tokens?_of_first? ?_
    rw [hdrop, hnil, List.nil_append, Token.first?_cons_slash hu]
  | case2 s c r hcons hfirst =>
    rw [tokens?_of_none hcons hfirst] at hs
    cases hs
  | case3 s c r hcons t rest hfirst ih =>
    rw [← hcons] at hfirst
    rw [tokens?_of_first? hfirst] at hs
    obtain ⟨us, hus, rfl⟩ := Option.map_eq_some_iff.1 hs
    have ht : rest = [] → t ≠ .symbol .slash := by
      rintro rfl rfl
      rw [tokens?_of_nil rfl] at hus
      cases hus
      exact hlast rfl
    have hlast' : us.getLast? ≠ some (.symbol .slash) := by
      cases us with
      | nil => simp
      | cons v vs => rwa [List.getLast?_cons_cons] at hlast
    have hnext := Token.first?_slash u hfirst ht
    rw [← hdrop] at hnext
    rw [tokens?_of_first? hnext, ih hus hlast', Option.map_map]
    rfl

end XmlHarvest.Query
