import EntityQuery.Predicate.Basic

/-!
# What simplified predicates mean

Simplifying keeps the meaning: `allOf` holds when every child holds (`holds_allOf`), and `anyOf` of
at least one child when some child holds (`holds_anyOf`). Nothing is left of a conjunction when all
its children always hold, and of a disjunction when one of them does (`allOf_eq_always_iff`,
`anyOf_eq_always_iff`). What is built from predicates in normal form is in normal form
(`normal_allOf`, `normal_anyOf`), and a conjunction keeps the comparisons of its children in order
(`leaves_allOf`).
-/

namespace EntityQuery.Predicate

variable {truth : Leaf → Prop}

theorem isAlways_iff {p : Predicate} : p.isAlways = true ↔ p = always := by
  cases p <;> simp [isAlways]

/-! ## Truth -/

@[simp] theorem holds_always : always.Holds truth := trivial

@[simp] theorem holds_compare {column : Column} {op : Comparator} {value : Json} :
    (compare column op value).Holds truth ↔ truth ⟨column, op, value⟩ := Iff.rfl

theorem allHold_iff {ps : List Predicate} : AllHold truth ps ↔ ∀ p ∈ ps, p.Holds truth := by
  induction ps with
  | nil => simp [AllHold]
  | cons p ps ih => simp [AllHold, ih]

theorem someHolds_iff {ps : List Predicate} : SomeHolds truth ps ↔ ∃ p ∈ ps, p.Holds truth := by
  induction ps with
  | nil => simp [SomeHolds]
  | cons p ps ih => simp [SomeHolds, ih]

@[simp] theorem holds_all {ps : List Predicate} :
    (all ps).Holds truth ↔ ∀ p ∈ ps, p.Holds truth := allHold_iff

@[simp] theorem holds_any {ps : List Predicate} :
    (any ps).Holds truth ↔ ∃ p ∈ ps, p.Holds truth := someHolds_iff

/-! ## Conjunction -/

/-- What is left of a conjunction once the children that always hold are dropped. -/
theorem allOf_eq (ps : List Predicate) :
    allOf ps = always ∧ ps.filter (!·.isAlways) = [] ∨
      (∃ p, allOf ps = p ∧ ps.filter (!·.isAlways) = [p]) ∨
      allOf ps = all (ps.filter (!·.isAlways)) ∧ 2 ≤ (ps.filter (!·.isAlways)).length := by
  unfold allOf
  generalize ps.filter (!·.isAlways) = kept
  match kept with
  | [] => simp
  | [p] => simp
  | p :: q :: rest => simp

theorem forall_kept_iff {ps : List Predicate} :
    (∀ p ∈ ps.filter (!·.isAlways), p.Holds truth) ↔ ∀ p ∈ ps, p.Holds truth := by
  refine ⟨fun h p hp => ?_, fun h p hp => h p (List.mem_filter.1 hp).1⟩
  by_cases ha : p.isAlways = true
  · rw [isAlways_iff.1 ha]
    exact holds_always
  · exact h p (List.mem_filter.2 ⟨hp, by simpa using ha⟩)

/-- A conjunction holds when every child does. -/
theorem holds_allOf {ps : List Predicate} :
    (allOf ps).Holds truth ↔ ∀ p ∈ ps, p.Holds truth := by
  rw [← forall_kept_iff]
  rcases allOf_eq ps with ⟨h, hk⟩ | ⟨p, h, hk⟩ | ⟨h, _⟩
  · simp [h, hk]
  · simp [h, hk]
  · rw [h, holds_all]

/-- A conjunction always holds when every child does. -/
theorem allOf_eq_always_iff {ps : List Predicate} :
    allOf ps = always ↔ ∀ p ∈ ps, p = always := by
  have hkept : ps.filter (!·.isAlways) = [] ↔ ∀ p ∈ ps, p = always := by
    simp [List.filter_eq_nil_iff, isAlways_iff]
  rw [← hkept]
  rcases allOf_eq ps with ⟨h, hnil⟩ | ⟨p, h, hone⟩ | ⟨h, hlen⟩
  · exact iff_of_true h hnil
  · have hp : p ∈ ps.filter (!·.isAlways) := by simp [hone]
    refine iff_of_false (fun halways => ?_) (fun hnil => ?_)
    · rw [← h, halways] at hp
      exact absurd (List.mem_filter.1 hp).2 (by decide)
    · rw [hnil] at hp
      cases hp
  · refine iff_of_false (fun halways => ?_) (fun hnil => ?_)
    · rw [halways] at h
      cases h
    · rw [hnil] at hlen
      simp at hlen

theorem holds_and {p q : Predicate} : (p.and q).Holds truth ↔ p.Holds truth ∧ q.Holds truth := by
  simp [and, holds_allOf]

/-! ## Disjunction -/

/-- A disjunction of at least one child holds when some child does. -/
theorem holds_anyOf {ps : List Predicate} (h : ps ≠ []) :
    (anyOf ps).Holds truth ↔ ∃ p ∈ ps, p.Holds truth := by
  unfold anyOf
  split
  · next ha =>
    obtain ⟨p, hp, hpa⟩ := List.any_eq_true.1 ha
    exact ⟨fun _ => ⟨p, hp, by rw [isAlways_iff.1 hpa]; exact holds_always⟩, fun _ => holds_always⟩
  · match ps with
    | [] => exact absurd rfl h
    | [p] => simp
    | p :: q :: rest => exact holds_any

/-- A disjunction always holds when it has no children, or one that always holds. -/
theorem anyOf_eq_always_iff {ps : List Predicate} :
    anyOf ps = always ↔ ps = [] ∨ always ∈ ps := by
  unfold anyOf
  split
  · next hany =>
    obtain ⟨p, hp, halways⟩ := List.any_eq_true.1 hany
    rw [isAlways_iff.1 halways] at hp
    exact iff_of_true rfl (Or.inr hp)
  · next hnone =>
    have hnot : always ∉ ps := fun hmem => hnone (List.any_eq_true.2 ⟨always, hmem, rfl⟩)
    match ps with
    | [] => exact iff_of_true rfl (Or.inl rfl)
    | [p] => simp [eq_comm]
    | p :: q :: rest => exact iff_of_false (nofun) (by simpa using hnot)

/-! ## Normal form -/

theorem allProper_iff {ps : List Predicate} : AllProper ps ↔ ∀ p ∈ ps, p.Proper := by
  induction ps with
  | nil => simp [AllProper]
  | cons p ps ih => simp [AllProper, ih]

theorem Normal.proper {p : Predicate} (h : p.Normal) (ha : ¬p.isAlways = true) : p.Proper :=
  h.resolve_left fun he => ha (isAlways_iff.2 he)

theorem normal_allOf {ps : List Predicate} (h : ∀ p ∈ ps, p.Normal) : (allOf ps).Normal := by
  have hkept : ∀ p ∈ ps.filter (!·.isAlways), p.Proper := fun p hp =>
    have ⟨hmem, hp⟩ := List.mem_filter.1 hp
    (h p hmem).proper (by simpa using hp)
  rcases allOf_eq ps with ⟨he, _⟩ | ⟨p, he, hk⟩ | ⟨he, hlen⟩
  · exact .inl he
  · exact .inr (he ▸ hkept p (by simp [hk]))
  · rw [he]
    exact .inr ⟨hlen, allProper_iff.2 hkept⟩

theorem normal_anyOf {ps : List Predicate} (h : ∀ p ∈ ps, p.Normal) : (anyOf ps).Normal := by
  unfold anyOf
  split
  · exact .inl rfl
  · next ha =>
    have hproper : ∀ p ∈ ps, p.Proper := fun p hp =>
      (h p hp).proper fun hpa => ha (List.any_eq_true.2 ⟨p, hp, hpa⟩)
    match ps with
    | [] => exact .inl rfl
    | [p] => exact .inr (hproper p (by simp))
    | p :: q :: rest => exact .inr ⟨by simp, allProper_iff.2 hproper⟩

/-! ## Comparisons -/

theorem leavesOf_eq (ps : List Predicate) : leavesOf ps = ps.flatMap leaves := by
  induction ps with
  | nil => rfl
  | cons p ps ih => simp [leavesOf, ih]

theorem flatMap_leaves_kept (ps : List Predicate) :
    (ps.filter (!·.isAlways)).flatMap leaves = ps.flatMap leaves := by
  induction ps with
  | nil => rfl
  | cons p ps ih =>
    by_cases h : p.isAlways = true
    · simp [isAlways_iff.1 h, leaves, ih, show always.isAlways = true from rfl]
    · simp [h, ih]

theorem leaves_allOf (ps : List Predicate) : (allOf ps).leaves = ps.flatMap leaves := by
  rw [← flatMap_leaves_kept]
  rcases allOf_eq ps with ⟨h, hk⟩ | ⟨p, h, hk⟩ | ⟨h, _⟩
  · simp [h, hk, leaves]
  · simp [h, hk]
  · rw [h, leaves, leavesOf_eq]

end EntityQuery.Predicate
