import EntityQuery.Predicate.Lemmas

/-!
# The comparisons of a predicate

Simplifying drops comparisons but makes up none (`mem_leaves_allOf`, `mem_leaves_anyOf`): a
conjunction keeps them all, and so does a disjunction unless a child that always holds makes it no
restriction (`leaves_anyOf_of_not_mem`). Only the truth of its comparisons matters to a predicate
(`holds_congr`).
-/

namespace EntityQuery.Predicate

theorem mem_leaves_allOf {ps : List Predicate} {leaf : Leaf} :
    leaf ∈ (allOf ps).leaves ↔ ∃ p ∈ ps, leaf ∈ p.leaves := by
  rw [leaves_allOf, List.mem_flatMap]

theorem leaves_anyOf_of_not_mem {ps : List Predicate} (h : always ∉ ps) :
    (anyOf ps).leaves = ps.flatMap leaves := by
  have hnone : ¬ps.any isAlways = true := by
    intro hany
    obtain ⟨p, hp, halways⟩ := List.any_eq_true.1 hany
    rw [isAlways_iff.1 halways] at hp
    exact h hp
  unfold anyOf
  rw [if_neg hnone]
  match ps with
  | [] => rfl
  | [p] => exact (List.flatMap_singleton leaves p).symm
  | p :: q :: rest => exact leavesOf_eq _

theorem leaves_anyOf_sublist (ps : List Predicate) :
    (anyOf ps).leaves.Sublist (ps.flatMap leaves) := by
  by_cases h : always ∈ ps
  · have halways : anyOf ps = always := by
      unfold anyOf
      rw [if_pos (List.any_eq_true.2 ⟨always, h, rfl⟩)]
    rw [halways]
    exact List.nil_sublist _
  · have hkept : (anyOf ps).leaves = ps.flatMap leaves := leaves_anyOf_of_not_mem h
    exact hkept ▸ List.Sublist.refl _

theorem mem_leaves_anyOf {ps : List Predicate} {leaf : Leaf} (h : leaf ∈ (anyOf ps).leaves) :
    ∃ p ∈ ps, leaf ∈ p.leaves :=
  List.mem_flatMap.1 ((leaves_anyOf_sublist ps).subset h)

mutual

/-- Two ways to read comparisons that agree on those of a predicate agree on the predicate. -/
theorem holds_congr {truth other : Leaf → Prop} :
    ∀ {p : Predicate}, (∀ leaf ∈ p.leaves, truth leaf ↔ other leaf) →
      (p.Holds truth ↔ p.Holds other)
  | always, _ => Iff.rfl
  | compare column op value, h => h ⟨column, op, value⟩ (List.mem_singleton_self _)
  | all children, h => by
    rw [holds_all, holds_all]
    exact forall₂_congr fun p hp => holds_congr_of_mem h p hp
  | any children, h => by
    rw [holds_any, holds_any]
    exact exists_congr fun p => and_congr_right fun hp => holds_congr_of_mem h p hp

theorem holds_congr_of_mem {truth other : Leaf → Prop} :
    ∀ {ps : List Predicate}, (∀ leaf ∈ leavesOf ps, truth leaf ↔ other leaf) →
      ∀ p ∈ ps, (p.Holds truth ↔ p.Holds other)
  | p :: ps, h, q, hq => by
    have hfirst : ∀ leaf ∈ p.leaves, truth leaf ↔ other leaf := fun leaf hleaf =>
      h leaf (List.mem_append_left _ hleaf)
    have hrest : ∀ leaf ∈ leavesOf ps, truth leaf ↔ other leaf := fun leaf hleaf =>
      h leaf (List.mem_append_right _ hleaf)
    cases hq with
    | head => exact holds_congr hfirst
    | tail _ hq => exact holds_congr_of_mem hrest q hq

end

end EntityQuery.Predicate
