import Mathlib.Data.List.Forall2

/-!
# Lists that go together position by position

Filters and the predicates they compile to, or rows and the responses they give, are lists of the
same length whose items are related one by one. What is related to some item is found
(`exists_of_mem_right`), and stands at its position (`getElem?_of_right`); a property that the
relation carries over holds of all, or of some, on one side when its counterpart does on the other
(`forall_iff_all`, `exists_iff_any`). What related items have in common the lists have in common
(`map_eq_map`, `flatMap_eq_flatMap`, `sublist_flatMap`), and of two lists paired in both directions
every item has a partner (`exists_both`). A list worked off without a gap is paired with its results
(`mapM_eq_some`).
-/

namespace EntityQuery.Pairing

variable {α β γ : Type} {R : α → β → Prop} {xs : List α} {ys : List β}

/-- A list is worked off without a gap when each of its items is, position by position. -/
theorem mapM_eq_some {f : α → Option β} :
    xs.mapM f = some ys ↔ List.Forall₂ (fun x y => f x = some y) xs ys := by
  induction xs generalizing ys with
  | nil => simp [eq_comm]
  | cons x xs ih =>
    rw [List.mapM_cons, List.forall₂_cons_left_iff]
    constructor
    · intro h
      obtain ⟨y, hy, h⟩ := Option.bind_eq_some_iff.1 h
      obtain ⟨rest, hrest, h⟩ := Option.bind_eq_some_iff.1 h
      cases h
      exact ⟨y, rest, hy, ih.1 hrest, rfl⟩
    · rintro ⟨y, rest, hy, hrest, rfl⟩
      rw [hy, ih.2 hrest]
      rfl

theorem mapM_congr {m : Type → Type} [Monad m] [LawfulMonad m] {f g : α → m β}
    (h : ∀ x ∈ xs, f x = g x) : xs.mapM f = xs.mapM g := by
  induction xs with
  | nil => rw [List.mapM_nil, List.mapM_nil]
  | cons x xs ih =>
    obtain ⟨hx, hrest⟩ := List.forall_mem_cons.1 h
    rw [List.mapM_cons, List.mapM_cons, hx, ih hrest]

theorem exists_of_mem_right (h : List.Forall₂ R xs ys) {y : β} (hy : y ∈ ys) :
    ∃ x ∈ xs, R x y := by
  induction h with
  | nil => cases hy
  | cons hxy _ ih =>
    rcases List.mem_cons.1 hy with rfl | hy
    · exact ⟨_, List.mem_cons_self, hxy⟩
    · obtain ⟨x, hx, hR⟩ := ih hy
      exact ⟨x, List.mem_cons_of_mem _ hx, hR⟩

theorem getElem?_of_right (h : List.Forall₂ R xs ys) {i : Nat} {y : β} (hy : ys[i]? = some y) :
    ∃ x, xs[i]? = some x ∧ R x y := by
  induction h generalizing i with
  | nil => cases hy
  | cons hxy _ ih =>
    cases i with
    | zero =>
      cases hy
      exact ⟨_, rfl, hxy⟩
    | succ i => exact ih hy

/-- The items on the left may be taken to be members of their list. -/
theorem with_mem (h : List.Forall₂ R xs ys) : List.Forall₂ (fun x y => x ∈ xs ∧ R x y) xs ys := by
  induction h with
  | nil => exact .nil
  | cons hxy _ ih =>
    refine .cons ⟨List.mem_cons_self, hxy⟩ (ih.imp ?_)
    rintro x y ⟨hx, hR⟩
    exact ⟨List.mem_cons_of_mem _ hx, hR⟩

theorem forall_iff_all {test : α → Bool} {Q : β → Prop}
    (h : List.Forall₂ (fun x y => Q y ↔ test x = true) xs ys) :
    (∀ y ∈ ys, Q y) ↔ xs.all test = true := by
  induction h with
  | nil => simp
  | cons hxy _ ih =>
    rw [List.forall_mem_cons, List.all_cons, Bool.and_eq_true, hxy, ih]

theorem exists_iff_any {test : α → Bool} {Q : β → Prop}
    (h : List.Forall₂ (fun x y => Q y ↔ test x = true) xs ys) :
    (∃ y ∈ ys, Q y) ↔ xs.any test = true := by
  induction h with
  | nil => simp
  | cons hxy _ ih =>
    rw [List.exists_mem_cons_iff, List.any_cons, Bool.or_eq_true, hxy, ih]

theorem map_eq_map {f : α → γ} {g : β → γ} (h : List.Forall₂ R xs ys)
    (hcommon : ∀ x y, R x y → f x = g y) : xs.map f = ys.map g := by
  induction h with
  | nil => rfl
  | cons hxy _ ih => rw [List.map_cons, List.map_cons, hcommon _ _ hxy, ih]

theorem flatMap_eq_flatMap {f : α → List γ} {g : β → List γ}
    (h : List.Forall₂ (fun x y => g y = f x) xs ys) : ys.flatMap g = xs.flatMap f := by
  rw [List.flatMap_def, List.flatMap_def, map_eq_map h fun _ _ hxy => hxy.symm]

theorem sublist_flatMap {f : α → List γ} {g : β → List γ}
    (h : List.Forall₂ (fun x y => (g y).Sublist (f x)) xs ys) :
    (ys.flatMap g).Sublist (xs.flatMap f) := by
  induction h with
  | nil => exact .slnil
  | cons hxy _ ih =>
    rw [List.flatMap_cons, List.flatMap_cons]
    exact hxy.append ih

theorem exists_both {S : β → α → Prop} (h : List.Forall₂ R xs ys) (h' : List.Forall₂ S ys xs)
    {x : α} (hx : x ∈ xs) : ∃ y, R x y ∧ S y x := by
  induction h with
  | nil => cases hx
  | cons hxy _ ih =>
    cases h' with
    | cons hyx h' =>
      rcases List.mem_cons.1 hx with rfl | hx
      · exact ⟨_, hxy, hyx⟩
      · exact ih h' hx

end EntityQuery.Pairing
