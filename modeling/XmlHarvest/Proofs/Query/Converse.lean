import XmlHarvest.Proofs.Number.Packing
import XmlHarvest.Query.Comparison

/-!
# The converse law

A comparison of two values asks what the converse comparison asks of the values exchanged. This does
not follow from the form of the definition, which treats nodes on the left, nodes on the right,
nodes on both sides and truth values apart. What these cases have in common is that simple values
stand for each side: every comparison is a search for two of them that are related. So the law comes
down to simple values, where the type that both sides are converted to does not depend on their
order.

## Main definitions

* `Query.Relation.converse`: the relation that holds from right to left.
* `Query.standIns`: the simple values that stand for a value beside another one.

## Main results

* `Query.Relation.holdsSimple_converse`: the converse law for simple values.
* `Query.Relation.holds_eq_any`: a comparison is a search.
* `Query.compare_converse`: the converse law.
-/

namespace XmlHarvest.Query

variable (d : Document)

namespace Relation

/-- The relation that holds from right to left if this one holds from left to right. -/
def converse : Relation → Relation
  | eq => eq
  | ne => ne
  | lt => gt
  | le => ge
  | gt => lt
  | ge => le

/-! ## Simple values -/

/-- The type in which two simple values are compared for equality does not depend on their order. -/
lemma equalSimple_comm (l r : Value) : equalSimple d l r = equalSimple d r l := by
  cases l <;> cases r <;> simp only [equalSimple] <;> exact BEq.comm

/-- **The converse law for simple values.** -/
lemma holdsSimple_converse (rel : Relation) (l r : Value) :
    rel.converse.holdsSimple d r l = rel.holdsSimple d l r := by
  cases rel with
  | eq => exact equalSimple_comm d r l
  | ne => exact congrArg (!·) (equalSimple_comm d r l)
  | lt | le | gt | ge => rfl

end Relation

/-! ## Comparisons as searches -/

/-- The simple values that stand for a value in a comparison with another one. Beside a truth value
nodes are one truth value, beside anything else they are the texts of all of them; a simple value
stands for itself. -/
def standIns (other : Value) : Value → List Value
  | .nodes is =>
    match other with
    | .boolean _ => [.boolean (Value.nodes is).toBoolean]
    | _ => is.map (Relation.textOf d)
  | v => [v]

/-- **A comparison is a search**: it holds if it holds between some of the values that stand for the
two sides. -/
lemma Relation.holds_eq_any (rel : Relation) (l r : Value) : rel.holds d l r =
    (standIns d r l).any fun a => (standIns d l r).any fun b => rel.holdsSimple d a b := by
  cases l <;> cases r <;> simp [holds, standIns, Value.toBoolean, Function.comp_def]

/-- The two lists of a search may be gone through in either order. -/
lemma any_any_comm {α β : Type} (as : List α) (bs : List β) (p : α → β → Bool) :
    (as.any fun a => bs.any fun b => p a b) = bs.any fun b => as.any fun a => p a b := by
  rw [Bool.eq_iff_iff]
  simp only [List.any_eq_true]
  constructor
  · rintro ⟨a, ha, b, hb, h⟩
    exact ⟨b, hb, a, ha, h⟩
  · rintro ⟨b, hb, a, ha, h⟩
    exact ⟨a, ha, b, hb, h⟩

/-! ## The law -/

/-- A comparison is the converse comparison of the values exchanged. -/
lemma Relation.holds_converse (rel : Relation) (l r : Value) :
    rel.holds d l r = rel.converse.holds d r l := by
  rw [holds_eq_any, holds_eq_any, any_any_comm]
  simp only [holdsSimple_converse]

/-- **The converse law.** For values of all types, in any combination, equality and difference do
not depend on the order of the values, and one value is below another one, or not above it, exactly
if the other one is above it, or not below it.

**Proof sketch.** All four are cases of `Relation.holds_converse`. A comparison is a search for two
related values among the simple ones that stand for its sides (`Relation.holds_eq_any`). The search
can begin with either side, and for simple values the law holds by cases
(`Relation.holdsSimple_converse`). -/
theorem compare_converse (l r : Value) :
    Relation.eq.holds d l r = Relation.eq.holds d r l ∧
      Relation.ne.holds d l r = Relation.ne.holds d r l ∧
      Relation.lt.holds d l r = Relation.gt.holds d r l ∧
      Relation.le.holds d l r = Relation.ge.holds d r l :=
  ⟨Relation.eq.holds_converse d l r, Relation.ne.holds_converse d l r,
    Relation.lt.holds_converse d l r, Relation.le.holds_converse d l r⟩

end XmlHarvest.Query
