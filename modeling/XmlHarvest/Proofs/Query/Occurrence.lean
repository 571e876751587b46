import Mathlib.Data.List.Infix
import XmlHarvest.Proofs.Except
import XmlHarvest.Query.Call

/-!
# The first occurrence of a text

One search tells whether a text occurs in another one, and what stands before and behind its first
occurrence. The search goes by characters, but it may as well go by bytes: in UTF-8 the bytes of a
text that is not empty are found only where its characters are, for the first byte of a character
never stands inside another one.

## Main definitions

* `Text.IsFirstSplit`: the parts of a text around the first occurrence of another one.
* `Text.bytes`: the bytes of a text in UTF-8.
* `Text.IsByteSplit`: the same parts, cut off at positions that count bytes.

## Main results

* `Text.isFirstSplit_of_split`, `Text.split_isSome_iff`: what the search finds, and when.
* `Text.exists_of_bytes`: bytes are found where characters are.
* `Query.call_around_first`: the functions of the query language.
-/

namespace XmlHarvest

namespace Text

/-- The parts of the text `s` around the text `p`, where `before` is the shortest beginning of `s`
that `p` follows. -/
structure IsFirstSplit (p s before after : List Char) : Prop where
  eq_append : s = before ++ p ++ after
  shortest : ∀ u v, s = u ++ p ++ v → before <+: u

/-- The bytes of a text in UTF-8. -/
def bytes (s : List Char) : List UInt8 :=
  s.flatMap String.utf8EncodeChar

/-- The bytes of `p` stand in those of `s` from the byte behind `before` on, and nowhere before. A
cut there and another one behind these bytes give the parts. -/
structure IsByteSplit (p s before after : List Char) : Prop where
  occurs : bytes p <+: (bytes s).drop (utf8Length before)
  least : ∀ i, bytes p <+: (bytes s).drop i → utf8Length before ≤ i
  cut_before : splitBytes (utf8Length before) s = (before, p ++ after)
  cut_after : splitBytes (utf8Length before + utf8Length p) s = (before ++ p, after)

variable {p s before after : List Char}

/-! ## The search -/

/-- A text begins with another one if something remains of it. -/
lemma stripStart_append_self (p rest : List Char) : stripStart p (p ++ rest) = some rest := by
  induction p with
  | nil => rfl
  | cons a p ih => rw [List.cons_append, stripStart, if_pos rfl, ih]

/-- **The search finds the first occurrence.**

**Proof sketch.** Induction on the text. An occurrence at its beginning is found at once. If there
is none, then every occurrence is one in the rest, and so is the first. -/
lemma isFirstSplit_of_split (h : split p s = some (before, after)) :
    IsFirstSplit p s before after := by
  refine ⟨eq_append_of_split h, ?_⟩
  induction s generalizing before with
  | nil =>
    intro u v _
    obtain ⟨rest, -, hparts⟩ := Option.map_eq_some_iff.1 h
    cases hparts
    exact List.nil_prefix
  | cons c s ih =>
    intro u v huv
    rw [split] at h
    split at h
    · cases h
      exact List.nil_prefix
    · rename_i hnone
      obtain ⟨⟨b, rest⟩, hsplit, hparts⟩ := Option.map_eq_some_iff.1 h
      cases hparts
      cases u with
      | nil =>
        rw [huv, List.nil_append, stripStart_append_self] at hnone
        cases hnone
      | cons e u =>
        obtain ⟨rfl, htail⟩ := List.cons.inj huv
        exact (List.prefix_cons_inj c).2 (ih hsplit u v htail)

/-- Of two occurrences that overlap, the first one counts. -/
example : split ['a', 'a'] ['b', 'a', 'a', 'a'] = some (['b'], ['a']) := by decide

/-- What stands at the beginning is found there. -/
lemma split_append_self (p rest : List Char) : split p (p ++ rest) = some ([], rest) := by
  have hstart := stripStart_append_self p rest
  cases hs : p ++ rest with
  | nil =>
    rw [hs] at hstart
    rw [split, hstart]
    rfl
  | cons c s =>
    rw [hs] at hstart
    rw [split, hstart]

/-- The search finds something if there is something to find. -/
lemma split_isSome_iff : (split p s).isSome ↔ p <:+: s := by
  constructor
  · intro h
    obtain ⟨⟨b, rest⟩, h⟩ := Option.isSome_iff_exists.1 h
    exact ⟨b, rest, (eq_append_of_split h).symm⟩
  · rintro ⟨u, v, rfl⟩
    induction u with
    | nil =>
      rw [List.nil_append, split_append_self]
      rfl
    | cons c u ih =>
      rw [List.cons_append, List.cons_append, split]
      split
      · rfl
      · rw [Option.isSome_map]
        exact ih

/-! ## Bytes -/

lemma bytes_append (s t : List Char) : bytes (s ++ t) = bytes s ++ bytes t :=
  List.flatMap_append

lemma length_bytes (s : List Char) : (bytes s).length = utf8Length s := by
  induction s with
  | nil => rfl
  | cons c s ih =>
    rw [bytes, List.flatMap_cons, List.length_append, String.length_utf8EncodeChar, utf8Length,
      ← ih, bytes]

/-- A text begins with another one if its bytes begin with the bytes of the other one. -/
lemma isPrefix_of_bytes (h : bytes p <+: bytes s) : p <+: s := by
  obtain ⟨rest, hrest⟩ := h
  refine List.isPrefix_of_utf8Encode_append_eq_utf8Encode rest.toByteArray ?_
  rw [List.utf8Encode, List.utf8Encode, ← List.toByteArray_append]
  exact congrArg List.toByteArray hrest

/-- The first byte of a character does not stand inside a character. -/
lemma not_bytes_prefix_inside {c : Char} {i : Nat} (hp : p ≠ []) (h0 : 0 < i)
    (hi : i < c.utf8Size) : ¬bytes p <+: (bytes (c :: s)).drop i := by
  rintro ⟨rest, hrest⟩
  obtain ⟨a, p, rfl⟩ := List.exists_cons_of_ne_nil hp
  have hfirst : 0 < (String.utf8EncodeChar a).length := by
    rw [String.length_utf8EncodeChar]
    exact a.utf8Size_pos
  have hinside : i < (String.utf8EncodeChar c).length := by
    rwa [String.length_utf8EncodeChar]
  have hbyte : (String.utf8EncodeChar a)[0] = (String.utf8EncodeChar c)[i] := by
    have hhead := congrArg (·[0]?) hrest
    simp only [bytes, List.flatMap_cons, List.append_assoc, List.getElem?_append_left hfirst,
      List.getElem?_drop, Nat.add_zero, List.getElem?_append_left hinside,
      List.getElem?_eq_getElem hfirst, List.getElem?_eq_getElem hinside, Option.some.injEq] at hhead
    exact hhead
  have hclass : (String.utf8EncodeChar a)[0].IsUTF8FirstByte :=
    UInt8.isUTF8FirstByte_getElem_utf8EncodeChar.2 rfl
  rw [hbyte, UInt8.isUTF8FirstByte_getElem_utf8EncodeChar] at hclass
  omega

/-- **Bytes are found where characters are.**

**Proof sketch.** Induction on the text that is searched. Bytes that are found behind its first
character are found in the rest, and inside this character none are found. -/
lemma exists_of_bytes {i : Nat} (hp : p ≠ []) (h : bytes p <+: (bytes s).drop i) :
    ∃ u v, s = u ++ p ++ v ∧ utf8Length u = i := by
  induction s generalizing i with
  | nil =>
    have hnil : bytes p = [] := by simpa [bytes] using h
    obtain ⟨a, p, rfl⟩ := List.exists_cons_of_ne_nil hp
    rw [bytes, List.flatMap_cons, List.append_eq_nil_iff] at hnil
    exact absurd hnil.1 String.utf8EncodeChar_ne_nil
  | cons c s ih =>
    rcases Nat.eq_zero_or_pos i with rfl | h0
    · obtain ⟨v, hv⟩ := isPrefix_of_bytes h
      exact ⟨[], v, hv.symm, rfl⟩
    rcases Nat.lt_or_ge i c.utf8Size with hi | hi
    · exact absurd h (not_bytes_prefix_inside hp h0 hi)
    · have hdrop : (bytes (c :: s)).drop i = (bytes s).drop (i - c.utf8Size) := by
        rw [bytes, List.flatMap_cons, List.drop_append, String.length_utf8EncodeChar,
          List.drop_eq_nil_of_le (by rwa [String.length_utf8EncodeChar]), List.nil_append, bytes]
      rw [hdrop] at h
      obtain ⟨u, v, rfl, hu⟩ := ih h
      exact ⟨c :: u, v, rfl, by rw [utf8Length, hu]; omega⟩

/-- The parts around the first occurrence can be found by bytes. -/
lemma IsFirstSplit.isByteSplit (h : IsFirstSplit p s before after) :
    IsByteSplit p s before after where
  occurs := by
    rw [h.eq_append, bytes_append, bytes_append, List.append_assoc, ← length_bytes, List.drop_left]
    exact List.prefix_append _ _
  least i hi := by
    by_cases hp : p = []
    · -- nothing stands before the first occurrence of the empty text
      have hnil : before = [] := List.prefix_nil.1 (h.shortest [] s (by simp [hp]))
      rw [hnil]
      exact Nat.zero_le i
    · obtain ⟨u, v, huv, rfl⟩ := exists_of_bytes hp hi
      obtain ⟨t, rfl⟩ := h.shortest u v huv
      rw [utf8Length_append]
      exact Nat.le_add_right _ _
  cut_before := by rw [h.eq_append, List.append_assoc, splitBytes_append]
  cut_after := by rw [h.eq_append, ← utf8Length_append, splitBytes_append]

end Text

/-! ## The functions -/

namespace Query

open Text

/-- **The functions around the first occurrence.** Either the second argument occurs in the first
one. Then `contains` is true, and `substring-before` and `substring-after` are the parts around the
first occurrence, by characters as well as by bytes. Or it does not, and the functions are false and
empty.

**Proof sketch.** The three functions make the same search. It finds something exactly if there is
an occurrence (`split_isSome_iff`), and by induction on the text it finds the first one
(`isFirstSplit_of_split`). A search by bytes finds no other, since the first byte of a character
does not stand inside another character (`IsFirstSplit.isByteSplit`). -/
theorem call_around_first (d : Document) (arguments : List Value) (focus : Focus) :
    let s := argumentText d focus arguments[0]?
    let p := argumentText d focus arguments[1]?
    (p.toList <:+: s.toList ∧ ∃ before after : String,
      call d .contains arguments focus = .ok (.boolean true) ∧
      call d .substringBefore arguments focus = .ok (.text before) ∧
      call d .substringAfter arguments focus = .ok (.text after) ∧
      s = before ++ p ++ after ∧
      IsFirstSplit p.toList s.toList before.toList after.toList ∧
      IsByteSplit p.toList s.toList before.toList after.toList) ∨
    (¬p.toList <:+: s.toList ∧
      call d .contains arguments focus = .ok (.boolean false) ∧
      call d .substringBefore arguments focus = .ok (.text "") ∧
      call d .substringAfter arguments focus = .ok (.text "")) := by
  intro s p
  have hcontains : call d .contains arguments focus =
      .ok (.boolean (split p.toList s.toList).isSome) := rfl
  have hbefore : call d .substringBefore arguments focus =
      .ok (.text (String.ofList ((split p.toList s.toList).elim [] Prod.fst))) := rfl
  have hafter : call d .substringAfter arguments focus =
      .ok (.text (String.ofList ((split p.toList s.toList).elim [] Prod.snd))) := rfl
  rw [← split_isSome_iff]
  cases hsplit : split p.toList s.toList with
  | some parts =>
    obtain ⟨before, after⟩ := parts
    rw [hsplit] at hcontains hbefore hafter
    have hfirst := isFirstSplit_of_split hsplit
    refine .inl ⟨rfl, _, _, hcontains, hbefore, hafter, ?_, ?_, ?_⟩
    · rw [String.ext_iff]
      simpa using hfirst.eq_append
    · simpa using hfirst
    · simpa using hfirst.isByteSplit
  | none =>
    rw [hsplit] at hcontains hbefore hafter
    exact .inr ⟨by simp, hcontains, hbefore, hafter⟩

end Query

end XmlHarvest
