import EntityQuery.Proofs.Filter.Combining
import EntityQuery.Proofs.Number.Rounding
import EntityQuery.Predicate.Lowering

/-!
# Integers in memory

A request compares integers by `IntegerTest`s. In memory both sides become floating-point numbers
first, so what is compared are the rounded integers (`accepts_integers`). The verdict is that of the
integers themselves as long as rounding does not merge the field with one that the test names, which
it cannot do to integers up to `2^53`, nor to any two that lie more than `2^11` apart. A statement
binds the same operands unrounded, so a store may answer otherwise (`accepts_neighbour`).
-/

namespace EntityQuery

/-- An integer that a JSON text can write as one: of 64 bits, with a sign or without. -/
def Fits64 (n : Int) : Prop := -2 ^ 63 ≤ n ∧ n < 2 ^ 64

theorem Fits64.log2_lt {n : Int} (h : Fits64 n) : n.natAbs.log2 < 64 := by
  obtain ⟨hlow, hhigh⟩ := h
  rcases Nat.eq_zero_or_pos n.natAbs with hzero | hpos
  · rw [hzero]
    decide
  · exact (Nat.log2_lt (Nat.ne_of_gt hpos)).2 (by omega)

/-! ## Comparing numbers -/

namespace Json

variable (m n : Number)

theorem less_num :
    (num m).less (num n) = decide (m.toBinary64.order < n.toBinary64.order) := by
  rw [Bool.eq_iff_iff]
  simp [less, order?, Int.compare_eq_lt]

theorem greater_num :
    (num m).greater (num n) = decide (n.toBinary64.order < m.toBinary64.order) := by
  rw [Bool.eq_iff_iff]
  simp [greater, order?, Int.compare_eq_gt]

theorem atMost_num :
    (num m).atMost (num n) = decide (m.toBinary64.order ≤ n.toBinary64.order) := by
  rw [Bool.eq_iff_iff]
  simp [atMost, order?, Int.compare_eq_lt, Int.le_iff_lt_or_eq]

theorem atLeast_num :
    (num m).atLeast (num n) = decide (n.toBinary64.order ≤ m.toBinary64.order) := by
  rw [Bool.eq_iff_iff]
  simp [atLeast, order?, Int.compare_eq_gt, Int.le_iff_lt_or_eq, @eq_comm _ n.toBinary64.order]

end Json

/-! ## Tests of integers -/

/-- The operator that asks for a comparison by sign. -/
def Operator.ofSign : Sql.Sign → Operator
  | .eq => .eq
  | .ne => .neq
  | .gt => .gt
  | .gte => .gte
  | .lt => .lt
  | .lte => .lte

/-- What a sign says of two integers. -/
def Sql.Sign.relates (sign : Sign) (a b : Int) : Bool :=
  match sign with
  | eq => decide (a = b)
  | ne => !decide (a = b)
  | gt => decide (b < a)
  | gte => decide (b ≤ a)
  | lt => decide (a < b)
  | lte => decide (a ≤ b)

theorem Sql.Sign.relates_congr {a b c d : Int} (hle : a ≤ b ↔ c ≤ d) (hge : b ≤ a ↔ d ≤ c)
    (sign : Sign) : sign.relates a b = sign.relates c d := by
  have heq : a = b ↔ c = d := by omega
  have hlt : a < b ↔ c < d := by omega
  have hgt : b < a ↔ d < c := by omega
  cases sign <;> simp only [relates, heq, hle, hge, hlt, hgt]

/-- A comparison with integers. -/
inductive IntegerTest
  | compare (sign : Sql.Sign) (b : Int)
  /-- one of the integers of a list, which may not be empty -/
  | oneOf (b : Int) (more : List Int)
  | between (lower upper : Int)

namespace IntegerTest

/-- The operator that asks for the test. -/
def operator : IntegerTest → Operator
  | compare sign _ => .ofSign sign
  | oneOf _ _ => .oneOf
  | between _ _ => .between

/-- The operand of the test in a request. -/
def operand : IntegerTest → Json
  | compare _ b => .int b
  | oneOf b more => .arr ((b :: more).map .int)
  | between lower upper => .obj [("lower", .int lower), ("upper", .int upper)]

/-- The integers that the test names. -/
def named : IntegerTest → List Int
  | compare _ b => [b]
  | oneOf b more => b :: more
  | between lower upper => [lower, upper]

/-- The test with other integers in the place of those it names. -/
def map (f : Int → Int) : IntegerTest → IntegerTest
  | compare sign b => compare sign (f b)
  | oneOf b more => oneOf (f b) (more.map f)
  | between lower upper => between (f lower) (f upper)

/-- Whether an integer passes the test. -/
def passes : IntegerTest → Int → Bool
  | compare sign b, a => sign.relates a b
  | oneOf b more, a => decide (a ∈ b :: more)
  | between lower upper, a => decide (lower ≤ a) && decide (a ≤ upper)

theorem map_id (t : IntegerTest) : t.map id = t := by
  cases t with
  | oneOf b more => rw [map, List.map_id, id]
  | _ => rfl

theorem fault?_operand (t : IntegerTest) : t.operator.fault? t.operand = none := by
  cases t with
  | compare sign b => cases sign <;> rfl
  | oneOf b more => rfl
  | between lower upper => rfl

/-- A test of integers that stand in one order as they do in another has one outcome in both. -/
theorem passes_map_congr {f g : Int → Int} {t : IntegerTest} {a : Int}
    (h : ∀ b ∈ t.named, (f a ≤ f b ↔ g a ≤ g b) ∧ (f b ≤ f a ↔ g b ≤ g a)) :
    (t.map f).passes (f a) = (t.map g).passes (g a) := by
  cases t with
  | compare sign b =>
    obtain ⟨hle, hge⟩ := h b (List.mem_singleton.2 rfl)
    exact sign.relates_congr hle hge
  | oneOf b more =>
    have heq : ∀ c ∈ b :: more, f c = f a ↔ g c = g a := fun c hc => by
      have hc := h c hc
      omega
    show decide (f a ∈ (b :: more).map f) = decide (g a ∈ (b :: more).map g)
    rw [decide_eq_decide, List.mem_map, List.mem_map]
    exact exists_congr fun c => and_congr_right (heq c)
  | between lower upper =>
    obtain ⟨-, hlower⟩ := h lower (List.mem_cons_self ..)
    obtain ⟨hupper, -⟩ := h upper (List.mem_cons_of_mem _ (List.mem_singleton.2 rfl))
    simp only [map, passes, hlower, hupper]

/-- In memory a test is made of the places that the words closest to the integers have. -/
theorem compares_int (t : IntegerTest) (a : Int) :
    Filter.compares t.operator t.operand (.int a) =
      (t.map (Binary64.ofInt · |>.order)).passes (Binary64.ofInt a).order := by
  cases t with
  | compare sign b =>
    cases sign with
    | eq => rfl
    | ne => rfl
    | gt => exact Json.greater_num (.int a) (.int b)
    | gte => exact Json.atLeast_num (.int a) (.int b)
    | lt => exact Json.less_num (.int a) (.int b)
    | lte => exact Json.atMost_num (.int a) (.int b)
  | oneOf b more =>
    show ((b :: more).map Json.int).any (Json.int a).looselyEqual =
      decide ((Binary64.ofInt a).order ∈ (b :: more).map (Binary64.ofInt · |>.order))
    rw [Bool.eq_iff_iff, List.any_map, List.any_eq_true, decide_eq_true_iff, List.mem_map]
    exact exists_congr fun c => and_congr_right fun _ => beq_iff_eq.trans eq_comm
  | between lower upper =>
    show ((Json.int a).atLeast (.int lower) && (Json.int a).atMost (.int upper)) = _
    rw [Json.atLeast_num, Json.atMost_num]
    rfl

/-! ## In a statement -/

/-- The value that an integer is bound as, whole. -/
def bound (n : Int) : Sql.Value := if n < 2 ^ 63 then .signed n else .unsigned n

/-- The condition that asks a store for the test. -/
def condition (column : Sql.ColumnName) : IntegerTest → Sql.Condition
  | compare sign b => .test (.compare column sign (bound b))
  | oneOf b more => .test (.oneOf column false ((b :: more).map bound))
  | between lower upper =>
    .all [.test (.compare column .gte (bound lower)), .test (.compare column .lte (bound upper))]

theorem lower_fragment (t : IntegerTest) (column : Column) (naming : Naming) :
    ((t.operator.fragment t.operand).bind column).lower naming = t.condition (naming column) := by
  cases t with
  | compare sign b => cases sign <;> rfl
  | oneOf b more =>
    show Sql.Condition.test (.oneOf _ _ (((b :: more).map Json.int).map Sql.Value.ofJson)) = _
    rw [List.map_map]
    rfl
  | between lower upper => rfl

end IntegerTest

namespace Filter

open Binary64

/-- **Integers are compared as rounded to 53 bits.** Where a field holds an integer of 64 bits, a
filter of one test of such integers accepts the record when the rounded integer passes the test of
the rounded ones. That is the verdict of the integers themselves unless rounding merges the field
with another integer that the test names: one of the two then lies beyond `2^53`, and they are no
more than `2^11` apart. The condition that the filter is lowered to has the integers whole. -/
theorem accepts_integers {t : IntegerTest} {operator : String}
    (hname : Operator.ofName? operator = some t.operator) {a : Int} (ha : Fits64 a)
    (hnamed : ∀ b ∈ t.named, Fits64 b) {field : String} {record : Json}
    (hrecord : record.getOrNull field = .int a) :
    (empty.compare field operator t.operand).accepts record =
      .ok ((t.map rounded).passes (rounded a)) ∧
    ((∀ b ∈ t.named, rounded a = rounded b → a = b) →
      (empty.compare field operator t.operand).accepts record = .ok (t.passes a)) ∧
    (∀ b ∈ t.named, rounded a = rounded b → a ≠ b →
      (2 ^ 53 < a.natAbs ∨ 2 ^ 53 < b.natAbs) ∧ (a - b).natAbs ≤ 2 ^ 11) ∧
    ∃ p, (empty.compare field operator t.operand).compile = .ok p ∧
      ∀ naming : Naming, p.lower naming = t.condition (naming ⟨[], field⟩) := by
  have hrange : ∀ {n : Int}, Fits64 n → n.natAbs.log2 < 1024 := fun h =>
    Nat.lt_trans h.log2_lt (by decide)
  have hrounded : (empty.compare field operator t.operand).accepts record =
      .ok ((t.map rounded).passes (rounded a)) := by
    rw [accepts_compare_empty hname t.fault?_operand, hrecord, t.compares_int]
    refine congrArg Except.ok (IntegerTest.passes_map_congr fun b hb => ?_)
    have hb := hrange (hnamed b hb)
    exact ⟨order_ofInt_le_iff (hrange ha) hb, order_ofInt_le_iff hb (hrange ha)⟩
  refine ⟨hrounded, fun hapart => ?_, fun b hb hmerged hne => ?_,
    ⟨_, compile_compare_empty hname t.fault?_operand field, t.lower_fragment _⟩⟩
  · -- rounding keeps the order, and what it does not merge it keeps apart
    have hid : (t.map rounded).passes (rounded a) = (t.map id).passes (id a) := by
      refine IntegerTest.passes_map_congr fun b hb => ?_
      have hle := @rounded_mono a b
      have hge := @rounded_mono b a
      have hne := hapart b hb
      show (rounded a ≤ rounded b ↔ a ≤ b) ∧ (rounded b ≤ rounded a ↔ b ≤ a)
      omega
    rw [hrounded, hid, t.map_id]
    rfl
  · have hb := hnamed b hb
    have hanear := rounded_near ha.log2_lt
    have hbnear := rounded_near hb.log2_lt
    refine ⟨?_, by omega⟩
    by_contra hsmall
    rw [not_or, Nat.not_lt, Nat.not_lt] at hsmall
    rw [rounded_eq_self hsmall.1, rounded_eq_self hsmall.2] at hmerged
    exact hne hmerged

/-- The largest integer of 64 bits is found greater than the first that has no place for a sign. -/
theorem accepts_integers_largest :
    (empty.compare "n" "GT" (.int 9223372036854775808)).accepts
      (.obj [("n", .int 18446744073709551615)]) = .ok true := by
  have hnamed : ∀ b ∈ [9223372036854775808], Fits64 b :=
    List.forall_mem_singleton.2 ⟨by decide, by decide⟩
  obtain ⟨-, hexact, hmerged, -⟩ :=
    @accepts_integers (.compare .gt 9223372036854775808) "GT" rfl 18446744073709551615
      ⟨by decide, by decide⟩ hnamed "n" (.obj [("n", .int 18446744073709551615)]) rfl
  have hapart : ∀ b ∈ [9223372036854775808],
      rounded 18446744073709551615 = rounded b → 18446744073709551615 = b := by
    refine List.forall_mem_singleton.2 fun hrounded => ?_
    have hnear := (hmerged _ (List.mem_singleton.2 rfl) hrounded (by decide)).2
    exact absurd hnear (by decide)
  exact hexact hapart

/-- Two neighbours beyond `2^53` are taken for equal, though a statement keeps them apart. -/
theorem accepts_neighbour :
    (empty.compare "n" "eq" (.int 9007199254740992)).accepts
      (.obj [("n", .int 9007199254740993)]) = .ok true ∧
    (IntegerTest.compare .eq 9007199254740992).passes 9007199254740993 = false :=
  ⟨rfl, rfl⟩

end Filter

end EntityQuery
