import EntityQuery.Proofs.Filter.Meaning
import EntityQuery.Proofs.Json.Equality

/-!
# Equal predicates

Predicates are equal when they have one structure and equal values in it; values may be equal
without being identical, as the two zeros are. Equal predicates hold together under every truth of
comparisons that equal comparisons share (`holds_of_same`). The comparisons made on a record in
memory have such a truth (`respects_holdsOn`).
-/

namespace EntityQuery

namespace Predicate

/-- Equality of comparisons, with values compared as values. -/
def Leaf.same (l m : Leaf) : Bool := l.column == m.column && l.op == m.op && l.value.same m.value

/-- Equal comparisons are true together. -/
def Respects (truth : Leaf → Prop) : Prop :=
  ∀ l m : Leaf, l.same m = true → (truth l ↔ truth m)

mutual

theorem holds_of_same {truth : Leaf → Prop} (respects : Respects truth) :
    ∀ {p q : Predicate}, p.same q = true → (p.Holds truth ↔ q.Holds truth)
  | always, always, _ => Iff.rfl
  | compare c o v, compare d r w, h => respects ⟨c, o, v⟩ ⟨d, r, w⟩ h
  | all _, all _, h => (holds_of_sameList respects h).1
  | any _, any _, h => (holds_of_sameList respects h).2

theorem holds_of_sameList {truth : Leaf → Prop} (respects : Respects truth) :
    ∀ {ps qs : List Predicate}, sameList ps qs = true →
      (AllHold truth ps ↔ AllHold truth qs) ∧ (SomeHolds truth ps ↔ SomeHolds truth qs)
  | [], [], _ => ⟨Iff.rfl, Iff.rfl⟩
  | p :: ps, q :: qs, h => by
    obtain ⟨hfirst, hrest⟩ := Bool.and_eq_true_iff.1 h
    have hp : p.Holds truth ↔ q.Holds truth := holds_of_same respects hfirst
    obtain ⟨hall, hsome⟩ := holds_of_sameList respects hrest
    exact ⟨and_congr hp hall, or_congr hp hsome⟩

end

end Predicate

/-! ## Comparisons in memory -/

namespace Json

theorem order?_congr {v w : Json} (h : v.same w = true) (actual : Json) :
    actual.order? v = actual.order? w := by
  cases actual with
  | num l =>
    cases v with
    | num m =>
      cases w with
      | num n => rw [order?, order?, Number.order_eq_of_same h]
      | _ => cases h
    | _ =>
      cases w with
      | num n => cases h
      | _ => rfl
  | str s =>
    cases v with
    | str t =>
      cases w with
      | str u =>
        obtain rfl := beq_iff_eq.1 h
        rfl
      | _ => cases h
    | _ =>
      cases w with
      | str u => cases h
      | _ => rfl
  | _ => rfl

theorem any_looselyEqual_congr (actual : Json) : ∀ {xs ys : List Json}, sameItems xs ys = true →
    xs.any actual.looselyEqual = ys.any actual.looselyEqual
  | [], [], _ => rfl
  | x :: xs, y :: ys, h => by
    obtain ⟨hfirst, hrest⟩ := Bool.and_eq_true_iff.1 h
    rw [List.any_cons, List.any_cons, looselyEqual_congr hfirst,
      any_looselyEqual_congr actual hrest]

theorem isIn_congr {v w : Json} (h : v.same w = true) (actual : Json) :
    actual.isIn v = actual.isIn w := by
  cases v with
  | arr xs =>
    cases w with
    | arr ys => exact any_looselyEqual_congr actual h
    | _ => cases h
  | _ =>
    cases w with
    | arr ys => cases h
    | _ => rfl

/-- Patterns are texts, and equal texts are identical. -/
theorem isLike_congr {v w : Json} (h : v.same w = true) (actual : Json) :
    actual.isLike v = actual.isLike w ∧ actual.isLikeFolded v = actual.isLikeFolded w := by
  cases v with
  | str s =>
    cases w with
    | str t =>
      obtain rfl := beq_iff_eq.1 h
      exact ⟨rfl, rfl⟩
    | _ => cases h
  | _ =>
    cases w with
    | str t => cases h
    | _ => cases actual <;> exact ⟨rfl, rfl⟩

end Json

theorem Comparator.compares_congr {v w : Json} (h : v.same w = true) (op : Comparator)
    (actual : Json) : op.compares v actual = op.compares w actual := by
  have hequal := Json.looselyEqual_congr h actual
  have horder := Json.order?_congr h actual
  have hin := Json.isIn_congr h actual
  obtain ⟨hlike, hfolded⟩ := Json.isLike_congr h actual
  cases op <;> simp only [compares, Json.greater, Json.atLeast, Json.less, Json.atMost, hequal,
    horder, hin, hlike, hfolded]

namespace Predicate

/-- Comparisons made in memory on a record do not tell equal operands apart. -/
theorem respects_holdsOn (record : Json) : Respects (·.HoldsOn record) := by
  intro l m h
  obtain ⟨hhead, hvalue⟩ := Bool.and_eq_true_iff.1 h
  obtain ⟨hcolumn, hop⟩ := Bool.and_eq_true_iff.1 hhead
  show l.op.compares l.value (l.column.read record) = true ↔
    m.op.compares m.value (m.column.read record) = true
  rw [beq_iff_eq.1 hcolumn, beq_iff_eq.1 hop, m.op.compares_congr hvalue]

end Predicate

end EntityQuery
