import EntityQuery.Json.Compare

/-!
# Equality of values

Equality of values is an equivalence (`same_refl`, `same_comm`, `same_trans`). The equality that
compares two numbers as floating-point numbers is symmetric, whichever side a number stands on
(`looselyEqual_comm`); under it only null equals null (`isNull_of_looselyEqual`).
-/

namespace EntityQuery

theorem Number.same_refl (n : Number) : n.same n = true := by
  cases n with
  | int a => simp [same]
  | float x => simp [same]

theorem Number.same_comm (m n : Number) : m.same n = n.same m := by
  cases m with
  | int a =>
    cases n with
    | int b => exact BEq.comm
    | float y => rfl
  | float x =>
    cases n with
    | int b => rfl
    | float y => exact BEq.comm

theorem Number.same_trans {l m n : Number} (hlm : l.same m = true) (hmn : m.same n = true) :
    l.same n = true := by
  cases l with
  | int a =>
    cases m with
    | int b =>
      obtain rfl := beq_iff_eq.1 hlm
      exact hmn
    | float y => cases hlm
  | float x =>
    cases m with
    | int b => cases hlm
    | float y =>
      cases n with
      | int c => cases hmn
      | float z => exact beq_iff_eq.2 ((beq_iff_eq.1 hlm).trans (beq_iff_eq.1 hmn))

theorem Number.order_eq_of_same {m n : Number} (h : m.same n = true) :
    m.toBinary64.order = n.toBinary64.order := by
  cases m with
  | int a =>
    cases n with
    | int b =>
      obtain rfl := beq_iff_eq.1 h
      rfl
    | float y => cases h
  | float x =>
    cases n with
    | int b => cases h
    | float y => exact beq_iff_eq.1 h

namespace Json

mutual

theorem same_refl : ∀ v : Json, v.same v = true
  | null => rfl
  | bool b => by simp [same]
  | num n => n.same_refl
  | str s => by simp [same]
  | arr xs => sameItems_refl xs
  | obj ms => sameMembers_refl ms

theorem sameItems_refl : ∀ xs : List Json, sameItems xs xs = true
  | [] => rfl
  | x :: xs => by rw [sameItems, same_refl x, sameItems_refl xs, Bool.and_self]

theorem sameMembers_refl : ∀ ms : List (String × Json), sameMembers ms ms = true
  | [] => rfl
  | (k, x) :: ms => by
    rw [sameMembers, same_refl x, sameMembers_refl ms, beq_self_eq_true, Bool.and_self,
      Bool.and_self]

end

mutual

theorem same_comm : ∀ v w : Json, v.same w = w.same v
  | null, w => by cases w <;> rfl
  | bool b, w => by
    cases w with
    | bool c => exact BEq.comm
    | _ => rfl
  | num n, w => by
    cases w with
    | num m => exact n.same_comm m
    | _ => rfl
  | str s, w => by
    cases w with
    | str t => exact BEq.comm
    | _ => rfl
  | arr xs, w => by
    cases w with
    | arr ys => exact sameItems_comm xs ys
    | _ => rfl
  | obj ms, w => by
    cases w with
    | obj ns => exact sameMembers_comm ms ns
    | _ => rfl

theorem sameItems_comm : ∀ xs ys : List Json, sameItems xs ys = sameItems ys xs
  | [], [] => rfl
  | [], _ :: _ => rfl
  | _ :: _, [] => rfl
  | x :: xs, y :: ys => by rw [sameItems, sameItems, same_comm x y, sameItems_comm xs ys]

theorem sameMembers_comm : ∀ ms ns : List (String × Json), sameMembers ms ns = sameMembers ns ms
  | [], [] => rfl
  | [], _ :: _ => rfl
  | _ :: _, [] => rfl
  | (k, x) :: ms, (l, y) :: ns => by
    have hkey : (k == l) = (l == k) := BEq.comm
    rw [sameMembers, sameMembers, hkey, same_comm x y, sameMembers_comm ms ns]

end

mutual

theorem same_trans : ∀ {u v w : Json}, u.same v = true → v.same w = true → u.same w = true
  | null, null, w, _, h => h
  | bool _, bool _, w, huv, hvw => by
    obtain rfl := beq_iff_eq.1 huv
    exact hvw
  | num _, num _, num _, huv, hvw => Number.same_trans huv hvw
  | str _, str _, w, huv, hvw => by
    obtain rfl := beq_iff_eq.1 huv
    exact hvw
  | arr _, arr _, arr _, huv, hvw => sameItems_trans huv hvw
  | obj _, obj _, obj _, huv, hvw => sameMembers_trans huv hvw

theorem sameItems_trans : ∀ {xs ys zs : List Json}, sameItems xs ys = true →
    sameItems ys zs = true → sameItems xs zs = true
  | [], [], zs, _, h => h
  | x :: xs, y :: ys, z :: zs, hxy, hyz => by
    obtain ⟨hxy, hxys⟩ := Bool.and_eq_true_iff.1 hxy
    obtain ⟨hyz, hyzs⟩ := Bool.and_eq_true_iff.1 hyz
    exact Bool.and_eq_true_iff.2 ⟨same_trans hxy hyz, sameItems_trans hxys hyzs⟩

theorem sameMembers_trans : ∀ {ls ms ns : List (String × Json)}, sameMembers ls ms = true →
    sameMembers ms ns = true → sameMembers ls ns = true
  | [], [], ns, _, h => h
  | (k, x) :: ls, (l, y) :: ms, (m, z) :: ns, hxy, hyz => by
    simp only [sameMembers, Bool.and_eq_true, beq_iff_eq] at hxy hyz ⊢
    obtain ⟨⟨rfl, hxy⟩, hlms⟩ := hxy
    obtain ⟨⟨rfl, hyz⟩, hmns⟩ := hyz
    exact ⟨⟨rfl, same_trans hxy hyz⟩, sameMembers_trans hlms hmns⟩

end

theorem looselyEqual_comm (v w : Json) : v.looselyEqual w = w.looselyEqual v := by
  cases v with
  | num m =>
    cases w with
    | num n => exact BEq.comm
    | _ => rfl
  | _ =>
    cases w with
    | num n => rfl
    | _ => exact same_comm _ _

/-- Values are equal, or numbers that are equal as floating-point numbers. -/
theorem looselyEqual_iff {v w : Json} : v.looselyEqual w = true ↔ v.same w = true ∨
    ∃ m n, v = num m ∧ w = num n ∧ m.toBinary64.order = n.toBinary64.order := by
  cases v with
  | num m =>
    cases w with
    | num n =>
      constructor
      · intro h
        exact .inr ⟨m, n, rfl, rfl, beq_iff_eq.1 h⟩
      · rintro (hsame | ⟨_, _, hm, hn, horder⟩)
        · exact beq_iff_eq.2 (Number.order_eq_of_same hsame)
        · cases hm
          cases hn
          exact beq_iff_eq.2 horder
    | _ => simp [looselyEqual]
  | _ => cases w <;> simp [looselyEqual]

theorem looselyEqual_trans {u v w : Json} (huv : u.looselyEqual v = true)
    (hvw : v.looselyEqual w = true) : u.looselyEqual w = true := by
  rw [looselyEqual_iff] at huv hvw ⊢
  rcases huv with huv | ⟨l, m, rfl, rfl, hlm⟩
  · rcases hvw with hvw | ⟨m, n, rfl, rfl, hmn⟩
    · exact .inl (same_trans huv hvw)
    · cases u with
      | num l => exact .inr ⟨l, n, rfl, rfl, (Number.order_eq_of_same huv).trans hmn⟩
      | _ => cases huv
  · cases w with
    | num n =>
      rcases hvw with hvw | ⟨_, _, hm, hn, hmn⟩
      · exact .inr ⟨l, n, rfl, rfl, hlm.trans (Number.order_eq_of_same hvw)⟩
      · cases hm
        cases hn
        exact .inr ⟨l, n, rfl, rfl, hlm.trans hmn⟩
    | _ => simp [same] at hvw

/-- Equal operands are equal to the same values. -/
theorem looselyEqual_congr {v w : Json} (h : v.same w = true) (actual : Json) :
    actual.looselyEqual v = actual.looselyEqual w := by
  rw [Bool.eq_iff_iff]
  constructor
  · intro hv
    exact looselyEqual_trans hv (looselyEqual_iff.2 (.inl h))
  · intro hw
    rw [same_comm] at h
    exact looselyEqual_trans hw (looselyEqual_iff.2 (.inl h))

/-! ## Comparing with null -/

theorem isNull_iff {value : Json} : value.isNull = true ↔ value = null := by
  cases value <;> simp [isNull]

@[simp] theorem looselyEqual_null (value : Json) : value.looselyEqual null = value.isNull := by
  cases value <;> rfl

@[simp] theorem null_looselyEqual (value : Json) : null.looselyEqual value = value.isNull := by
  cases value <;> rfl

/-- Only null equals null. -/
theorem isNull_of_looselyEqual {a b : Json} (h : a.looselyEqual b = true) :
    a.isNull = b.isNull := by
  cases a with
  | null =>
    rw [null_looselyEqual] at h
    exact h.symm
  | _ =>
    cases b with
    | null => cases h
    | _ => rfl

end Json

end EntityQuery
