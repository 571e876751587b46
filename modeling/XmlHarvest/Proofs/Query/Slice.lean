import XmlHarvest.Proofs.Except
import XmlHarvest.Proofs.Query.Substring

/-!
# Parts of a text between whole numbers

Rounding does not change the bounds of a part if they are whole numbers of at most 52 bits, nor the
sum of two such numbers. The part is then made of the characters at the positions between the
bounds. Beyond `2 ^ 53` not every position is a double, but no position is rounded across such a
bound.

## Main definitions

* `Query.charactersAt`: the characters of a text at some of its positions.

## Main results

* `Query.le_ofNat_iff_of_small`, `Query.ofNat_lt_iff_of_small`: positions against small whole
  numbers.
* `Query.charactersAt_split`: the parts before and from a position on.
* `Query.substring_of_integers`: the part of a text between whole numbers.
-/

open XmlHarvest.Number

namespace XmlHarvest.Query

/-- The characters of a text at the positions, counted from 1 on, that meet a condition, in
order. -/
def charactersAt (p : Nat → Prop) [DecidablePred p] (s : List Char) : List Char :=
  ((s.zipIdx 1).filter fun c => p c.2).map Prod.fst

/-! ## Positions -/

/-- A whole number of less than 53 bits is not crossed when another one is rounded. -/
lemma le_nearestInt_iff {z w : Int} (hz : z.natAbs < 2 ^ 53) : z ≤ nearestInt w ↔ z ≤ w := by
  refine ⟨fun h => ?_, le_nearestInt (isShort_of_le hz.le)⟩
  by_contra hlt
  have hbelow : nearestInt w ≤ z - 1 := nearestInt_le (isShort_of_le (by omega)) (by omega)
  omega

section Bounds

variable {x y : Float} {a b : Int} {n : Nat}

/-- A position against a whole number of less than 53 bits. -/
lemma le_ofNat_iff_of_small (hx : HasUnits x (a * gridSize 0)) (ha : a.natAbs < 2 ^ 53)
    (hn : n < 2 ^ 64) : x ≤ ofNat n ↔ a ≤ n := by
  have hone : (0 : Int) < gridSize 0 := Int.natCast_pos.2 (gridSize_pos 0)
  rw [hx.le_iff (hasUnits_ofNat hn), mul_le_mul_iff_left₀ hone, ← nearestInt_natCast,
    le_nearestInt_iff ha]

/-- A whole number of less than 53 bits against a position. -/
lemma ofNat_lt_iff_of_small (hx : HasUnits x (a * gridSize 0)) (ha : a.natAbs < 2 ^ 53)
    (hn : n < 2 ^ 64) : ofNat n < x ↔ n < a := by
  have hone : (0 : Int) < gridSize 0 := Int.natCast_pos.2 (gridSize_pos 0)
  rw [(hasUnits_ofNat hn).lt_iff hx, mul_lt_mul_iff_left₀ hone, ← nearestInt_natCast, ← not_le,
    le_nearestInt_iff ha, not_le]

/-- A sum of whole numbers is exact if it has less than 53 bits. -/
lemma hasUnits_add_of_small (hx : HasUnits x (a * gridSize 0)) (hy : HasUnits y (b * gridSize 0))
    (hab : (a + b).natAbs < 2 ^ 53) : HasUnits (x + y) ((a + b) * gridSize 0) := by
  have hsum : nearestInt (a * gridSize 0 + b * gridSize 0) = (a + b) * gridSize 0 := by
    rw [← add_mul, nearestInt_mul_gridSize, nearestInt_eq_self (isShort_of_le hab.le)]
  rw [← hsum]
  refine hx.add hy ?_
  rw [hsum, Int.natAbs_mul, Int.natAbs_natCast]
  exact (Nat.mul_le_mul_right _ (by omega)).trans_lt mul_gridSize_lt_limit

/-- A whole number of at most 52 bits is rounded to itself. -/
lemma hasUnits_round_of_small (hx : (shape x).value? = some (a : Rat)) (ha : a.natAbs ≤ 2 ^ 52) :
    HasUnits (Number.round x) (a * gridSize 0) := by
  have hround := rounded_value hx
  rwa [rounded_intCast, if_neg (by omega)] at hround

end Bounds

/-- The value of a whole number of at most 53 bits that is made a double. -/
lemma value?_ofRatio_one {n : Nat} (hn : n ≤ 2 ^ 53) (negative : Bool) :
    (shape (ofRatio negative n 1)).value? = some (signed negative n : Rat) := by
  have hunits := hasUnits_ofRatio_one (n := n) (by omega) negative
  rw [nearest_of_le hn, signed_mul] at hunits
  rw [hunits.value?_eq, Int.cast_mul, Int.cast_natCast, mul_div_cancel_right₀ _ gridSize_ne_zero]

/-! ## Characters -/

/-- What is picked between two bounds are the characters at the positions that compare with them. -/
lemma pick_eq_filter {first last : Float} {s : List Char} {k : Nat} : pick first last k s =
    ((s.zipIdx k).filter fun c => first ≤ ofNat c.2 && ofNat c.2 < last).map Prod.fst := by
  induction s generalizing k with
  | nil => rfl
  | cons c s ih =>
    rw [pick, List.zipIdx_cons, List.filter_cons, ih]
    dsimp only
    split <;> rfl

/-- What is picked from a text whose length is a machine word. -/
lemma pick_eq_charactersAt {first last : Float} {s : List Char} {p : Nat → Prop} [DecidablePred p]
    (hs : s.length < 2 ^ 64)
    (h : ∀ n < 2 ^ 64, first ≤ ofNat n ∧ ofNat n < last ↔ p n) :
    pick first last 1 s = charactersAt p s := by
  rw [pick_eq_filter, charactersAt]
  congr 1
  refine List.filter_congr fun c hc => ?_
  have hposition : c.2 < 2 ^ 64 := by
    have hlt := List.snd_lt_add_of_mem_zipIdx hc
    omega
  rw [← Bool.decide_and, decide_eq_decide]
  exact h c.2 hposition

/-- **The parts before and from a position on** make up the text.

**Proof sketch.** Induction on the text. As long as the position has not been reached, the next
character belongs to the first part; from there on all the rest belongs to the second one. -/
lemma charactersAt_split (b : Int) (s : List Char) :
    charactersAt (fun p => p < b) s ++ charactersAt (fun p => b ≤ p) s = s := by
  suffices h : ∀ k : Nat, ((s.zipIdx k).filter fun c => (c.2 : Int) < b).map Prod.fst ++
      ((s.zipIdx k).filter fun c => b ≤ (c.2 : Int)).map Prod.fst = s from h 1
  induction s with
  | nil => exact fun _ => rfl
  | cons c s ih =>
    intro k
    rcases lt_or_ge (k : Int) b with hlt | hge
    · have hback : ¬b ≤ (k : Int) := not_le.2 hlt
      rw [List.zipIdx_cons, List.filter_cons_of_pos (by simpa using hlt),
        List.filter_cons_of_neg (by simpa using hback), List.map_cons, List.cons_append, ih]
    · have hall : ∀ e ∈ (c :: s).zipIdx k, b ≤ (e.2 : Int) := fun e he => by
        have hle := List.le_snd_of_mem_zipIdx he
        omega
      rw [List.filter_eq_nil_iff.2 fun e he => by simpa using hall e he,
        List.filter_eq_self.2 fun e he => by simpa using hall e he, List.zipIdx_map_fst]
      rfl

/-! ## Parts of a text -/

section Parts

variable {x y : Float} {a n : Int} {s : List Char}

/-- The part of a text with a start and a length that are whole numbers. -/
lemma substring_some_eq (hx : (shape x).value? = some (a : Rat)) (ha : a.natAbs ≤ 2 ^ 52)
    (hy : (shape y).value? = some (n : Rat)) (hn : n.natAbs ≤ 2 ^ 52)
    (hsum : (a + n).natAbs < 2 ^ 53) (hs : s.length < 2 ^ 64) :
    substring s x (some y) = charactersAt (fun p => a ≤ p ∧ p < a + n) s := by
  have hfirst := hasUnits_round_of_small hx ha
  have hlast := hasUnits_add_of_small hfirst (hasUnits_round_of_small hy hn) hsum
  exact pick_eq_charactersAt hs fun p hp =>
    and_congr (le_ofNat_iff_of_small hfirst (by omega) hp) (ofNat_lt_iff_of_small hlast hsum hp)

/-- The part of a text from a whole number on. -/
lemma substring_none_eq (hx : (shape x).value? = some (a : Rat)) (ha : a.natAbs ≤ 2 ^ 52)
    (hs : s.length < 2 ^ 64) : substring s x none = charactersAt (fun p => a ≤ p) s := by
  have hfirst := hasUnits_round_of_small hx ha
  have hinfinity : infinity.toModel.unpack = .infinity .positive := unpack_packedInfinity _
  refine pick_eq_charactersAt hs fun p hp => ?_
  rw [le_ofNat_iff_of_small hfirst (by omega) hp]
  exact and_iff_left (((hasUnits_ofNat hp).lt_infinite_iff hinfinity).2 rfl)

end Parts

/-- **The part of a text between whole numbers.** For a start `a` and a length `n`, whole numbers of
either sign up to `2 ^ 51`, it consists of the characters at the positions from `a` on and before `a
+ n`, and without a length of those from `a` on. The part from the first position on with the length
`n` and the part from `n + 1` on make up the text. The length of a text is a machine word.

**Proof sketch.** Rounding leaves the bounds as they are, and their sum is exact
(`hasUnits_round_of_small`, `hasUnits_add_of_small`). A position may be rounded on its way to a
double, but not across a whole number of less than 53 bits (`le_nearestInt_iff`), so the characters
that are picked are those at the positions between the bounds (`substring_some_eq`,
`substring_none_eq`). The parts before and from a position on make up the text
(`charactersAt_split`). -/
theorem substring_of_integers (d : Document) (focus : Focus) (text start length : Value) {a n : Int}
    (ha : a.natAbs ≤ 2 ^ 51) (hn : n.natAbs ≤ 2 ^ 51)
    (hstart : (shape (start.toNumber d)).value? = some (a : Rat))
    (hlength : (shape (length.toNumber d)).value? = some (n : Rat))
    (hs : (text.toText d).length < 2 ^ 64) :
    call d .substring [text, start, length] focus = .ok (.text (String.ofList
      (charactersAt (fun p => a ≤ p ∧ p < a + n) (text.toText d).toList))) ∧
    call d .substring [text, start] focus = .ok (.text (String.ofList
      (charactersAt (fun p => a ≤ p) (text.toText d).toList))) ∧
    ∀ one next : Value, (shape (one.toNumber d)).value? = some 1 →
      (shape (next.toNumber d)).value? = some ((n + 1 : Int) : Rat) →
      ∃ head tail : String, call d .substring [text, one, length] focus = .ok (.text head) ∧
        call d .substring [text, next] focus = .ok (.text tail) ∧ head ++ tail = text.toText d := by
  have hcall (start length : Value) : call d .substring [text, start, length] focus =
      .ok (.text (String.ofList (substring (text.toText d).toList (start.toNumber d)
        (some (length.toNumber d))))) := rfl
  have hcall' (start : Value) : call d .substring [text, start] focus =
      .ok (.text (String.ofList (substring (text.toText d).toList (start.toNumber d) none))) := rfl
  have hs' : (text.toText d).toList.length < 2 ^ 64 := by rwa [String.length_toList]
  refine ⟨?_, ?_, fun one next hone hnext => ?_⟩
  · rw [hcall, substring_some_eq hstart (by omega) hlength (by omega) (by omega) hs']
  · rw [hcall', substring_none_eq hstart (by omega) hs']
  · refine ⟨_, _, hcall one length, hcall' next, ?_⟩
    have hone' : (shape (one.toNumber d)).value? = some ((1 : Int) : Rat) := by rwa [Int.cast_one]
    have hhead : charactersAt (fun p => 1 ≤ (p : Int) ∧ (p : Int) < 1 + n) (text.toText d).toList =
        charactersAt (fun p => (p : Int) < n + 1) (text.toText d).toList := by
      rw [charactersAt, charactersAt]
      congr 1
      refine List.filter_congr fun c hc => ?_
      have hle := List.le_snd_of_mem_zipIdx hc
      rw [decide_eq_decide]
      omega
    rw [substring_some_eq hone' (by norm_num) hlength (by omega) (by omega) hs',
      substring_none_eq hnext (by omega) hs', hhead, ← String.ofList_append, charactersAt_split,
      String.ofList_toList]

/-- The part of `"12345"` from -1 on with the length 4 ends before 3, and the first four characters
are followed by those from 5 on. -/
theorem substring_of_integers_negative : ∃ d : Document, Document.parse "<r/>" = .ok d ∧
    (shape (ofRatio true 1 1)).value? = some (-1) ∧ (shape (ofNat 4)).value? = some 4 ∧
    call d .substring [.text "12345", .number (ofRatio true 1 1), .number (ofNat 4)] ⟨0, 1, 1⟩ =
      .ok (.text "12") ∧
    call d .substring [.text "12345", .number (ofRatio true 1 1)] ⟨0, 1, 1⟩ = .ok (.text "12345") ∧
    ∃ head tail : String,
      call d .substring [.text "12345", .number (ofNat 1), .number (ofNat 4)] ⟨0, 1, 1⟩ =
        .ok (.text head) ∧
      call d .substring [.text "12345", .number (ofNat 5)] ⟨0, 1, 1⟩ = .ok (.text tail) ∧
      head ++ tail = "12345" := by
  have hparse : (Document.parse "<r/>").toOption.isSome := by decide +kernel
  obtain ⟨d, hd⟩ := Option.isSome_iff_exists.1 hparse
  have hminus : (shape (ofRatio true 1 1)).value? = some ((-1 : Int) : Rat) :=
    value?_ofRatio_one (n := 1) (by norm_num) true
  have hone : (shape (ofNat 1)).value? = some ((1 : Int) : Rat) :=
    value?_ofRatio_one (by norm_num) false
  have hfour : (shape (ofNat 4)).value? = some ((4 : Int) : Rat) :=
    value?_ofRatio_one (by norm_num) false
  have hfive : (shape (ofNat 5)).value? = some ((5 : Int) : Rat) :=
    value?_ofRatio_one (by norm_num) false
  have hlength : ((Value.text "12345").toText d).length < 2 ^ 64 := by
    show "12345".length < 2 ^ 64
    decide
  obtain ⟨hpart, hrest, hsplit⟩ := substring_of_integers d ⟨0, 1, 1⟩ (.text "12345")
    (.number (ofRatio true 1 1)) (.number (ofNat 4)) (by norm_num) (by norm_num) hminus hfour
    hlength
  refine ⟨d, toOption_eq_some_iff.1 hd, by exact_mod_cast hminus, by exact_mod_cast hfour, ?_, ?_,
    hsplit (.number (ofNat 1)) (.number (ofNat 5)) (by exact_mod_cast hone) hfive⟩
  · have hslice : charactersAt (fun p => -1 ≤ (p : Int) ∧ (p : Int) < -1 + 4) "12345".toList =
        "12".toList := by decide +kernel
    refine hpart.trans ?_
    show Except.ok (Value.text (String.ofList (charactersAt _ "12345".toList))) = _
    rw [hslice, String.ofList_toList]
  · have hslice : charactersAt (fun p => -1 ≤ (p : Int)) "12345".toList = "12345".toList := by
      decide +kernel
    refine hrest.trans ?_
    show Except.ok (Value.text (String.ofList (charactersAt _ "12345".toList))) = _
    rw [hslice, String.ofList_toList]

end XmlHarvest.Query
