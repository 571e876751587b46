import Mathlib.Data.List.Forall2
import Mathlib.Data.Nat.Digits.Defs
import XmlHarvest.Markup.Event

/-!
# What references denote

A reference in character data is one of five names, or a numeral behind `#` or behind `#x`. The
characters that references stand for are told here by names and numerals alone, and then compared
with what is read. Numerals are read with an optional plus sign, so there are references beyond
those with digits only; apart from these nothing else is accepted, and everything else is the fault
that names the reference.

## Main definitions

* `Text.IsDigit`, `Text.IsNumeral`: digits and numerals, and their values.
* `Markup.Denotes`: the character that a reference denotes.

## Main results

* `Text.natOfDigits?_eq_some_iff`: reading a run of digits.
* `Markup.resolve?_eq_some_iff`: reading a reference.
* `Markup.readPiece_reference`: what becomes of a reference in a document.
-/

namespace XmlHarvest

/-! ## Numerals -/

namespace Text

/-- The character `c` is the digit of value `d` in a base up to sixteen. Letters may be of either
case. -/
def IsDigit (base : Nat) (c : Char) (d : Nat) : Prop :=
  d < base ∧ (c = Nat.digitChar d ∨ c = (Nat.digitChar d).toUpper)

/-- The text is a run of one or more digits, the first of which counts most, with the value `n`. -/
def IsNumeral (base : Nat) (s : List Char) (n : Nat) : Prop :=
  s ≠ [] ∧ ∃ ds, List.Forall₂ (IsDigit base) s ds ∧ Nat.ofDigits base ds.reverse = n

variable {base acc n d : Nat} {s : List Char} {c : Char}

/-- Only characters of the first 128 have a value. -/
lemma toNat_lt_of_digitValue? (h : digitValue? c = some d) : c.toNat < 128 := by
  have hle {last : Char} (h : c ≤ last) (hlast : last.toNat < 128) : c.toNat < 128 :=
    Nat.lt_of_le_of_lt (UInt32.le_iff_toNat_le.1 h) hlast
  unfold digitValue? at h
  split_ifs at h with hdecimal hlower hupper
  · exact hle hdecimal.2 (by decide)
  · exact hle hlower.2 (by decide)
  · exact hle hupper.2 (by decide)

/-- The value of a digit. -/
lemma digitValue?_eq_some_iff (hbase : base ≤ 16) :
    digitValue? c = some d ∧ d < base ↔ IsDigit base c d := by
  have hread : ∀ d < 16, digitValue? (Nat.digitChar d) = some d ∧
      digitValue? (Nat.digitChar d).toUpper = some d := by decide +kernel
  have hwritten : ∀ n < 128, ∀ d ∈ digitValue? (Char.ofNat n),
      Char.ofNat n = Nat.digitChar d ∨ Char.ofNat n = (Nat.digitChar d).toUpper := by decide +kernel
  constructor
  · rintro ⟨hd, hlt⟩
    have hself : Char.ofNat c.toNat = c := Char.ofNat_toNat c
    have hdigit := hwritten c.toNat (toNat_lt_of_digitValue? hd) d (hself.symm ▸ hd)
    rw [hself] at hdigit
    exact ⟨hlt, hdigit⟩
  · rintro ⟨hlt, rfl | rfl⟩
    · exact ⟨(hread d (by omega)).1, hlt⟩
    · exact ⟨(hread d (by omega)).2, hlt⟩

/-- **Reading a run of digits**, counted on from `acc`: Horner's rule on the values of the
digits. -/
lemma natOfDigits?_eq_some_iff (hbase : base ≤ 16) : natOfDigits? base acc s = some n ↔
    ∃ ds, List.Forall₂ (IsDigit base) s ds ∧ ds.foldl (fun acc d => base * acc + d) acc = n := by
  induction s generalizing acc with
  | nil =>
    simp only [natOfDigits?, Option.some.injEq, List.forall₂_nil_left_iff, exists_eq_left,
      List.foldl_nil]
  | cons c s ih =>
    rw [natOfDigits?]
    constructor
    · intro h
      obtain ⟨d, hd, h⟩ := Option.bind_eq_some_iff.1 h
      split_ifs at h with hlt
      obtain ⟨ds, hds, hn⟩ := ih.1 h
      exact ⟨d :: ds, .cons ((digitValue?_eq_some_iff hbase).1 ⟨hd, hlt⟩) hds, hn⟩
    · rintro ⟨ds, hds, hn⟩
      cases hds with
      | cons hdigit hds =>
        obtain ⟨hd, hlt⟩ := (digitValue?_eq_some_iff hbase).2 hdigit
        refine Option.bind_eq_some_iff.2 ⟨_, hd, ?_⟩
        rw [if_pos hlt]
        exact ih.2 ⟨_, hds, hn⟩

/-- A numeral consists of digits. -/
lemma IsNumeral.digitValue?_isSome (hbase : base ≤ 16) (h : IsNumeral base s n) :
    ∀ c ∈ s, (digitValue? c).isSome := by
  obtain ⟨-, ds, hds, -⟩ := h
  induction hds with
  | nil => simp
  | cons hdigit _ ih =>
    refine List.forall_mem_cons.2 ⟨?_, ih⟩
    rw [((digitValue?_eq_some_iff hbase).2 hdigit).1]
    rfl

end Text

/-! ## References -/

namespace Markup

open Text

/-- The numbers of the Unicode scalar values: the code points that are no surrogates. -/
def IsScalar (n : Nat) : Prop :=
  n < 0xD800 ∨ 0xE000 ≤ n ∧ n ≤ 0x10FFFF

/-- The characters with names. -/
def predefined : List (List Char × Char) :=
  [(['a', 'm', 'p'], '&'), (['l', 't'], '<'), (['g', 't'], '>'), (['q', 'u', 'o', 't'], '"'),
    (['a', 'p', 'o', 's'], '\'')]

/-- The reference with this text denotes the character: it is one of the five names, or the number
of the character in decimal digits behind `#` or in hexadecimal digits behind `#x` or `#X`. The
digits stand behind one of the signs. -/
inductive Denotes (signs : List (List Char)) : List Char → Char → Prop
  | name {name : List Char} {c : Char} : (name, c) ∈ predefined → Denotes signs name c
  | decimal {sign s : List Char} {n : Nat} : sign ∈ signs → IsNumeral 10 s n → IsScalar n →
      Denotes signs ('#' :: (sign ++ s)) (Char.ofNat n)
  | hexadecimal {x : Char} {sign s : List Char} {n : Nat} : x ∈ ['x', 'X'] → sign ∈ signs →
      IsNumeral 16 s n → IsScalar n → Denotes signs ('#' :: x :: (sign ++ s)) (Char.ofNat n)

/-- Digits without a sign. -/
def unsigned : List (List Char) :=
  [[]]

/-- Digits with or without a plus sign. -/
def optionalPlus : List (List Char) :=
  [[], ['+']]

variable {base n : Nat} {s name : List Char} {c : Char}

/-- Reading a numeral. -/
lemma numeral?_eq_some_iff (hbase : base ≤ 16) : numeral? base s = some n ↔ IsNumeral base s n := by
  have hvalue (ds : List Nat) :
      ds.foldl (fun acc d => base * acc + d) 0 = Nat.ofDigits base ds.reverse := by
    rw [Nat.ofDigits_eq_foldr, List.foldr_reverse]
    simp only [Nat.cast_id, Nat.add_comm]
  rw [numeral?, IsNumeral]
  cases s with
  | nil => simp
  | cons c s =>
    rw [if_neg (by simp), natOfDigits?_eq_some_iff hbase]
    simp only [hvalue, ne_eq, reduceCtorEq, not_false_eq_true, true_and]

/-- Reading a numeral that may carry a plus sign. -/
lemma signedNumeral?_eq_some_iff (hbase : base ≤ 16) : signedNumeral? base s = some n ↔
    ∃ sign ∈ optionalPlus, ∃ t, s = sign ++ t ∧ IsNumeral base t n := by
  have hplus (t : List Char) : ¬IsNumeral base ('+' :: t) n := fun h =>
    absurd (h.digitValue?_isSome hbase '+' List.mem_cons_self) (by decide)
  simp only [optionalPlus, List.mem_cons, List.not_mem_nil, or_false, exists_eq_or_imp,
    exists_eq_left, List.nil_append, List.singleton_append]
  unfold signedNumeral?
  split
  · rename_i t
    rw [numeral?_eq_some_iff hbase]
    constructor
    · intro h
      exact .inr ⟨t, rfl, h⟩
    · rintro (⟨t', rfl, h⟩ | ⟨t', ht, h⟩)
      · exact absurd h (hplus t)
      · cases ht
        exact h
  · rename_i hne
    rw [numeral?_eq_some_iff hbase]
    constructor
    · intro h
      exact .inl ⟨s, rfl, h⟩
    · rintro (⟨t, rfl, h⟩ | ⟨t, rfl, h⟩)
      · exact h
      · exact absurd rfl (hne t)

/-- The character with a number. -/
lemma charOfCode?_eq_some_iff : charOfCode? n = some c ↔ IsScalar n ∧ c = Char.ofNat n := by
  have hvalid : n.isValidChar ↔ IsScalar n := by
    unfold Nat.isValidChar IsScalar
    omega
  rw [charOfCode?, ← hvalid]
  by_cases h : n.isValidChar
  · rw [dif_pos h, Option.some.injEq, Char.ofNat, dif_pos h]
    exact ⟨fun hc => ⟨h, hc.symm⟩, fun hc => hc.2.symm⟩
  · rw [dif_neg h]
    simp [h]

/-- The characters with names are found by their names. -/
lemma named?_eq_some_iff : named? name = some c ↔ (name, c) ∈ predefined := by
  constructor
  · intro h
    unfold named? at h
    split_ifs at h with hname hname hname hname hname
    all_goals
      cases h
      subst hname
      decide
  · intro h
    simp only [predefined, List.mem_cons, List.not_mem_nil, or_false, Prod.mk.injEq] at h
    rcases h with ⟨rfl, rfl⟩ | ⟨rfl, rfl⟩ | ⟨rfl, rfl⟩ | ⟨rfl, rfl⟩ | ⟨rfl, rfl⟩ <;> rfl

/-- No name begins as a numeral does. -/
lemma named?_hash (s : List Char) : named? ('#' :: s) = none := by
  simp [named?]

/-- A reference in hexadecimal digits. -/
lemma resolve?_hexadecimal {x : Char} (hx : x ∈ ['x', 'X']) (s : List Char) :
    resolve? ('#' :: x :: s) = (signedNumeral? 16 s).bind charOfCode? := by
  unfold resolve?
  rw [named?_hash]
  rcases List.mem_pair.1 hx with rfl | rfl <;> rfl

/-- A reference in decimal digits. -/
lemma resolve?_decimal (hs : ∀ x ∈ s.head?, x ∉ ['x', 'X']) :
    resolve? ('#' :: s) = (signedNumeral? 10 s).bind charOfCode? := by
  unfold resolve?
  rw [named?_hash]
  cases s with
  | nil => rfl
  | cons x s =>
    have hx : x ∉ ['x', 'X'] := hs x rfl
    simp only [List.mem_cons, List.not_mem_nil, or_false, not_or] at hx
    simp [hx.1, hx.2]

/-- A reference without a name or a numeral. -/
lemma resolve?_eq_none (hname : named? name = none) (hhash : name.head? ≠ some '#') :
    resolve? name = none := by
  unfold resolve?
  rw [hname]
  cases name with
  | nil => rfl
  | cons c s =>
    have hc : c ≠ '#' := fun h => hhash (congrArg some h)
    simp [hc]

/-- Reading the number of a character. -/
lemma bind_charOfCode?_eq_some_iff (hbase : base ≤ 16) :
    (signedNumeral? base s).bind charOfCode? = some c ↔
      ∃ sign ∈ optionalPlus, ∃ t n, s = sign ++ t ∧ IsNumeral base t n ∧ IsScalar n ∧
        c = Char.ofNat n := by
  simp only [Option.bind_eq_some_iff, signedNumeral?_eq_some_iff hbase, charOfCode?_eq_some_iff]
  constructor
  · rintro ⟨n, ⟨sign, hsign, t, hs, hn⟩, hscalar, hc⟩
    exact ⟨sign, hsign, t, n, hs, hn, hscalar, hc⟩
  · rintro ⟨sign, hsign, t, n, hs, hn, hscalar, hc⟩
    exact ⟨n, ⟨sign, hsign, t, hs, hn⟩, hscalar, hc⟩

/-- Decimal digits, with or without a sign, do not look like hexadecimal ones. -/
lemma head_notMem_of_isNumeral {sign : List Char} (hsign : sign ∈ optionalPlus)
    (h : IsNumeral 10 s n) : ∀ x ∈ (sign ++ s).head?, x ∉ ['x', 'X'] := by
  intro x hx hmem
  have hnone : digitValue? x = none := by
    rcases List.mem_pair.1 hmem with rfl | rfl <;> decide
  rcases List.mem_pair.1 hsign with rfl | rfl
  · cases s with
    | nil => cases hx
    | cons c s =>
      cases hx
      have hdigit := h.digitValue?_isSome (by norm_num) x List.mem_cons_self
      rw [hnone] at hdigit
      cases hdigit
  · cases hx
    exact absurd hmem (by decide)

/-- **Reading a reference.**

**Proof sketch.** Names are looked up first, and none of them begins with `#`. Behind `#`, an `x` in
either case tells hexadecimal digits from decimal ones, since it is no digit itself. -/
lemma resolve?_eq_some_iff : resolve? name = some c ↔ Denotes optionalPlus name c := by
  constructor
  · intro h
    cases hname : named? name with
    | some c' =>
      unfold resolve? at h
      rw [hname] at h
      exact .name (named?_eq_some_iff.1 (hname.trans h))
    | none =>
      by_cases hhash : name.head? = some '#'
      · obtain ⟨s, rfl⟩ := List.head?_eq_some_iff.1 hhash
        by_cases hx : ∀ x ∈ s.head?, x ∉ ['x', 'X']
        · rw [resolve?_decimal hx, bind_charOfCode?_eq_some_iff (by norm_num)] at h
          obtain ⟨sign, hsign, t, n, rfl, hn, hscalar, rfl⟩ := h
          exact .decimal hsign hn hscalar
        · push Not at hx
          obtain ⟨x, hhead, hx⟩ := hx
          obtain ⟨t, rfl⟩ := List.head?_eq_some_iff.1 hhead
          rw [resolve?_hexadecimal hx, bind_charOfCode?_eq_some_iff le_rfl] at h
          obtain ⟨sign, hsign, t, n, rfl, hn, hscalar, rfl⟩ := h
          exact .hexadecimal hx hsign hn hscalar
      · rw [resolve?_eq_none hname hhash] at h
        cases h
  · intro h
    cases h with
    | name h =>
      unfold resolve?
      rw [named?_eq_some_iff.2 h]
    | @decimal sign s n hsign hs hn =>
      rw [resolve?_decimal (head_notMem_of_isNumeral hsign hs),
        bind_charOfCode?_eq_some_iff (by norm_num)]
      exact ⟨sign, hsign, s, n, rfl, hs, hn, rfl⟩
    | @hexadecimal x sign s n hx hsign hs hn =>
      rw [resolve?_hexadecimal hx, bind_charOfCode?_eq_some_iff le_rfl]
      exact ⟨sign, hsign, s, n, rfl, hs, hn, rfl⟩

/-- There is no plus sign in a numeral. -/
lemma plus_notMem_of_isNumeral (hbase : base ≤ 16) (h : IsNumeral base s n) : '+' ∉ s :=
  fun hplus => absurd (h.digitValue?_isSome hbase '+' hplus) (by decide)

/-- References without signs are those that have no plus sign in them. -/
lemma denotes_unsigned_iff :
    Denotes unsigned name c ↔ Denotes optionalPlus name c ∧ '+' ∉ name := by
  have hnone : [] ∈ optionalPlus := by decide
  constructor
  · intro h
    cases h with
    | name h =>
      have hnames : ∀ entry ∈ predefined, '+' ∉ entry.1 := by decide
      exact ⟨.name h, hnames _ h⟩
    | @decimal sign s n hsign hs hn =>
      obtain rfl := List.mem_singleton.1 hsign
      refine ⟨.decimal hnone hs hn, ?_⟩
      simpa using plus_notMem_of_isNumeral (by norm_num) hs
    | @hexadecimal x sign s n hx hsign hs hn =>
      obtain rfl := List.mem_singleton.1 hsign
      have hxplus : '+' ≠ x := by
        rintro rfl
        exact absurd hx (by decide)
      refine ⟨.hexadecimal hx hnone hs hn, ?_⟩
      simpa [hxplus] using plus_notMem_of_isNumeral le_rfl hs
  · rintro ⟨h, hplus⟩
    cases h with
    | name h => exact .name h
    | @decimal sign s n hsign hs hn =>
      rcases List.mem_pair.1 hsign with rfl | rfl
      · exact .decimal (List.mem_singleton_self _) hs hn
      · exact absurd (by simp) hplus
    | @hexadecimal x sign s n hx hsign hs hn =>
      rcases List.mem_pair.1 hsign with rfl | rfl
      · exact .hexadecimal hx (List.mem_singleton_self _) hs hn
      · exact absurd (by simp) hplus

/-- **What becomes of a reference in character data.** It stands for the character that it denotes,
where a numeral may carry a plus sign, and a reference that denotes no character is the fault that
names it. The references without signs are those of them that have no plus sign.

**Proof sketch.** A reference is read as the character that is found for its name, or it is the
fault; and a character is found exactly if the name denotes it (`resolve?_eq_some_iff`). Neither the
predefined names nor digits have a plus sign in them, so the sign is all in which the two kinds of
references differ (`denotes_unsigned_iff`). -/
theorem readPiece_reference (nesting : Nesting) (offset : Nat) (name : List Char) :
    (∀ c, readPiece nesting offset (.reference name) =
        .ok (.reference (String.singleton c), nesting) ↔ Denotes optionalPlus name c) ∧
    (readPiece nesting offset (.reference name) = .error (.unknownReference (String.ofList name)) ↔
      ∀ c, ¬Denotes optionalPlus name c) ∧
    ∀ c, Denotes unsigned name c ↔ Denotes optionalPlus name c ∧ '+' ∉ name := by
  refine ⟨fun c => ?_, ?_, fun c => denotes_unsigned_iff⟩
  · rw [← resolve?_eq_some_iff, readPiece]
    cases resolve? name with
    | none => simp
    | some c' => simp [String.singleton_inj]
  · simp only [← resolve?_eq_some_iff, ← ne_eq, ← Option.eq_none_iff_forall_ne_some]
    rw [readPiece]
    cases resolve? name with
    | none => simp
    | some c' => simp

/-- **A plus sign is accepted** before the digits, although a reference without signs does not have
one. -/
theorem readPiece_reference_plus :
    readPiece .outermost 0 (.reference ['#', '+', '6', '5']) = .ok (.reference "A", .outermost) ∧
      ∀ c, ¬Denotes unsigned ['#', '+', '6', '5'] c :=
  ⟨rfl, fun c h => (denotes_unsigned_iff.1 h).2 (by decide)⟩

end Markup

end XmlHarvest
