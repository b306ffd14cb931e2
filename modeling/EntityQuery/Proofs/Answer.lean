import EntityQuery.Error
import Mathlib.Data.List.Forall2

/-!
# Answers in sequence

What a chain of answers comes to: it gives a result only when every part of it does (`bind_eq_ok`,
`mapM_eq_ok`), and the first error is the error of the whole (`mapM_eq_error`). `outcome` is what is
left of an answer when nobody asks for its result, so that two computations with the same outcome
refuse the same inputs for the same reasons.
-/

namespace EntityQuery.Answer

variable {α β : Type}

@[simp] theorem ok_bind (a : α) (f : α → Answer β) : (Except.ok a >>= f) = f a := rfl

@[simp] theorem error_bind (e : QueryError) (f : α → Answer β) :
    ((Except.error e : Answer α) >>= f) = .error e := rfl

@[simp] theorem pure_eq (a : α) : (pure a : Answer α) = .ok a := rfl

theorem bind_eq_ok {x : Answer α} {f : α → Answer β} {b : β} :
    x >>= f = .ok b ↔ ∃ a, x = .ok a ∧ f a = .ok b := by
  cases x with
  | error e => simp
  | ok a => simp

theorem seq_eq_ok {x : Answer Unit} {y : Answer β} {b : β} :
    (x >>= fun _ => y) = .ok b ↔ x = .ok () ∧ y = .ok b := by
  cases x with
  | error e => simp
  | ok _ => simp

theorem map_eq_ok {x : Answer α} {f : α → β} {b : β} :
    f <$> x = .ok b ↔ ∃ a, x = .ok a ∧ f a = b := by
  cases x with
  | error e => simp
  | ok a => simp

/-- A list is worked off when each of its items is, position by position. -/
theorem mapM_eq_ok {f : α → Answer β} {xs : List α} {ys : List β} :
    xs.mapM f = .ok ys ↔ List.Forall₂ (fun x y => f x = .ok y) xs ys := by
  induction xs generalizing ys with
  | nil => simp [eq_comm]
  | cons x xs ih =>
    rw [List.mapM_cons]
    simp only [bind_eq_ok, pure_eq, Except.ok.injEq, List.forall₂_cons_left_iff, ih]
    constructor
    · rintro ⟨y, hy, rest, hrest, rfl⟩
      exact ⟨y, rest, hy, hrest, rfl⟩
    · rintro ⟨y, rest, hy, hrest, rfl⟩
      exact ⟨y, hy, rest, hrest, rfl⟩

theorem exists_mapM_eq_ok {f : α → Answer β} {xs : List α} :
    (∃ ys, xs.mapM f = .ok ys) ↔ ∀ x ∈ xs, ∃ y, f x = .ok y := by
  simp only [mapM_eq_ok]
  induction xs with
  | nil => simp
  | cons x xs ih =>
    simp only [List.forall₂_cons_left_iff, List.forall_mem_cons, ← ih]
    constructor
    · rintro ⟨-, y, ys, hy, hys, rfl⟩
      exact ⟨⟨y, hy⟩, ys, hys⟩
    · rintro ⟨⟨y, hy⟩, ys, hys⟩
      exact ⟨y :: ys, y, ys, hy, hys, rfl⟩

/-- The first item that fails is the one reported. -/
theorem mapM_eq_error {f : α → Answer β} {xs : List α} {e : QueryError} :
    xs.mapM f = .error e ↔ ∃ before x after, xs = before ++ x :: after ∧
      (∀ y ∈ before, ∃ b, f y = .ok b) ∧ f x = .error e := by
  induction xs with
  | nil => simp
  | cons x xs ih =>
    rw [List.mapM_cons]
    cases hx : f x with
    | error d =>
      rw [error_bind, Except.error.injEq]
      constructor
      · rintro rfl
        exact ⟨[], x, xs, rfl, by simp, hx⟩
      · rintro ⟨before, y, after, hsplit, hbefore, hy⟩
        cases before with
        | nil =>
          cases hsplit
          rw [hx] at hy
          cases hy
          rfl
        | cons z before =>
          cases hsplit
          obtain ⟨b, hb⟩ := hbefore x List.mem_cons_self
          rw [hx] at hb
          cases hb
    | ok b =>
      have hrest : (Except.ok b >>= fun b => xs.mapM f >>= fun bs => pure (b :: bs)) =
          (.error e : Answer (List β)) ↔ xs.mapM f = .error e := by
        rw [ok_bind]
        cases xs.mapM f <;> simp
      rw [hrest, ih]
      constructor
      · rintro ⟨before, y, after, rfl, hbefore, hy⟩
        exact ⟨x :: before, y, after, rfl, List.forall_mem_cons.2 ⟨⟨b, hx⟩, hbefore⟩, hy⟩
      · rintro ⟨before, y, after, hsplit, hbefore, hy⟩
        cases before with
        | nil =>
          cases hsplit
          rw [hx] at hy
          cases hy
        | cons z before =>
          cases hsplit
          exact ⟨before, y, after, rfl, (List.forall_mem_cons.1 hbefore).2, hy⟩

/-- Where each item's result is made from another one, so are the results of the whole list. -/
theorem mapM_eq_map {γ : Type} {f : α → Answer γ} {h : α → Answer β} {g : β → γ} {xs : List α}
    (heach : ∀ x ∈ xs, f x = g <$> h x) : xs.mapM f = List.map g <$> xs.mapM h := by
  induction xs with
  | nil => rfl
  | cons x xs ih =>
    obtain ⟨hfirst, hrest⟩ := List.forall_mem_cons.1 heach
    rw [List.mapM_cons, List.mapM_cons, hfirst, ih hrest]
    cases h x with
    | error e => rfl
    | ok b => cases xs.mapM h <;> rfl

/-- That there is a result, or what went wrong. -/
def outcome (x : Answer α) : Answer Unit := x >>= fun _ => .ok ()

theorem outcome_eq_ok {x : Answer α} : x.outcome = .ok () ↔ ∃ a, x = .ok a := by
  cases x with
  | error e => simp [outcome]
  | ok a => simp [outcome]

theorem outcome_eq_error {x : Answer α} {e : QueryError} :
    x.outcome = .error e ↔ x = .error e := by
  cases x with
  | error d => simp [outcome]
  | ok a => simp [outcome]

end EntityQuery.Answer
